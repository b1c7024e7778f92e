import LeafFringe.Element.Basic
import LeafFringe.Site.Insertion
import LeafFringe.Site.Removal

/-!
# Debug text of nodes

A node shows its name, its size and its elements; the outcome of an edit shows the branch that
was taken and the new nodes.
-/

namespace LeafFringe

open Text

variable {α : Type} [Element α]

/-- A named run of elements with their number. -/
def debugRun (name : String) (run : List α) : Layout :=
  .compound (name ++ "(" ++ toString run.length ++ ")[") "" "]" (run.map Element.debug)

def Leaf.debug (l : Leaf α) : Layout := debugRun (Element.leafName α) l.toList

def PartialLeaf.debug (p : PartialLeaf α) : Layout :=
  debugRun ("Partial" ++ Element.leafName α) p.toList

def Node.debug : Node α → Layout
  | .leaf l => l.debug
  | .part p => p.debug

def Insertion.debug (how : Insertion α) : Layout :=
  match how with
  | .replaced n => .wrapped how.label n.debug
  | .shiftedLeft l n => .record how.label [("left", l.debug), ("node", n.debug)]
  | .shiftedRight n r => .record how.label [("node", n.debug), ("right", r.debug)]
  | .split l r => .record how.label [("left", l.debug), ("right", r.debug)]

def Removal.debug (how : Removal α) : Layout :=
  match how with
  | .borrowedLeft l n => .record how.label [("left", l.debug), ("node", n.debug)]
  | .borrowedRight n r => .record how.label [("node", n.debug), ("right", r.debug)]
  | .shrunk n | .mergedLeft n | .mergedRight n => .wrapped how.label n.debug
  | .underflow p => .wrapped how.label p.debug

def ArityError.debug (e : ArityError) : Layout :=
  let number (n : Nat) : Layout := .text (toString n)
  match e with
  | .leaf found =>
    .record "Leaf" [("found", number found), ("min", number minLeaf), ("max", number maxLeaf)]
  | .part found => .record "Partial" [("found", number found), ("limit", number minLeaf)]

end LeafFringe
