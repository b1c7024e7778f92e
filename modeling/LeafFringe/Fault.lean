import LeafFringe.Bounds

/-!
# Why an operation is refused

`ArityError` is for runs that come from outside and fit no node. `Fault` is for calls that
break a promise of their caller: a position out of range, or a shape that no list of nodes
may have. The wording of both stands here and nowhere else.
-/

namespace LeafFringe

/-- A run from outside cannot become a node: its length is outside the bounds of that kind. -/
inductive ArityError where
  | leaf (found : Nat)
  | part (found : Nat)
deriving DecidableEq, Repr

namespace ArityError

/-- The length of the rejected run. -/
def found : ArityError → Nat
  | leaf n => n
  | part n => n

def message : ArityError → String
  | leaf n =>
    "a leaf must hold between " ++ toString minLeaf ++ " and " ++ toString maxLeaf ++
      " elements, got " ++ toString n
  | part n =>
    "a partial leaf must hold fewer than " ++ toString minLeaf ++ " elements, got " ++ toString n

end ArityError

/-- A shape that nodes, or lists of them, must not have. -/
inductive Violation where
  | leafSize (found : Nat)
  | partSize (found : Nat)
  /-- A partial leaf of this size stands beside other nodes. -/
  | strayPart (size : Nat)
deriving DecidableEq, Repr

/-- The text of a violation among nodes that are called `name`. -/
def Violation.message (name : String) : Violation → String
  | leafSize n => "wrong " ++ name ++ " size: " ++ toString n
  | partSize n => "wrong partial " ++ name ++ " size: " ++ toString n
  | strayPart n => "stray partial leaf of size " ++ toString n ++ " in a fringe"

/-- A call outside of what its caller promised. -/
inductive Fault where
  /-- A position, an offset or a size lies outside of the run. -/
  | outOfRange
  | violation (what : Violation)
deriving DecidableEq, Repr

end LeafFringe
