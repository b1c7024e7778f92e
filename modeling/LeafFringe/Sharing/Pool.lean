import LeafFringe.Fringe.Basic
import LeafFringe.Sharing.Held
import LeafFringe.Site.Insertion
import LeafFringe.Site.Removal

/-!
# A growing pool of nodes

A pool keeps nodes in numbered slots; a node once in a slot never changes. Every slot carries
the number of the run it holds, which is the first slot that held it: a clone, or a node that
an operation hands on as it is, keeps the number, and a node that was built gets that of its
own slot. Two leaves are the same leaf if they hold the same run.

A `Call` names the slots it reads; its answer lists the nodes it has made and what it found.
-/

namespace LeafFringe

variable {α : Type}

/-- A node in a pool, with the first slot that held its run. -/
structure Slot (α : Type) where
  run : Nat
  node : Node α
deriving DecidableEq, Repr

def Slot.held (s : Slot α) : Held α := ⟨some s.run, s.node⟩

abbrev Pool (α : Type) := List (Slot α)

/-- Why a call on a pool is refused. -/
inductive Refusal where
  | arity (e : ArityError)
  /-- The call was ended by a fault, after these events. -/
  | fault (why : Logged Fault)
  /-- A slot that must hold a leaf holds a partial leaf. -/
  | notLeaf
  /-- There is no slot of this number. -/
  | noSlot (slot : Nat)
deriving DecidableEq, Repr

/-- A call on the nodes of a pool, which it names by their slots. -/
inductive Call (α : Type) where
  | leaf (elems : List α)
  | part (elems : List α)
  | ofElems (elems : List α)
  | clone (node : Nat)
  | insert (left : Option Nat) (node : Nat) (right : Option Nat) (pos : Nat) (val : α)
  | remove (left : Option Nat) (node : Nat) (right : Option Nat) (pos : Nat)
  | slice (node pos size : Nat)
  | reverse (node : Nat)
  | set (node pos : Nat) (val : α)
  | append (nodes : List Nat) (node : Nat)
  | concat (nodes right : List Nat)
  | get? (node pos : Nat)
  | get (node pos : Nat)
  | eq (a b : Nat)
  /-- Whether two leaves have equal elements and so hash alike. -/
  | hashEq (a b : Nat)
  /-- Whether two leaves hold the same run. -/
  | sameRun (a b : Nat)
  | check (nodes : List Nat)
  | checkOne (node : Nat)
  | flatten (nodes : List Nat)

/-- What a call has found. -/
inductive Finding (α : Type) where
  | elem (a : α)
  | noElem
  | truth (b : Bool)
  | count (n : Nat)
  | elems (l : List α)
  /-- Which branch an edit has taken. -/
  | branch (label : String)
  /-- The position that the next node of an output will take. -/
  | next (position : Nat)
deriving DecidableEq, Repr

/-- The nodes that a call has made, and what it has found. -/
structure Answer (α : Type) where
  made : List (Held α) := []
  finding : Option (Finding α) := none
deriving DecidableEq, Repr

namespace Pool

/-- The slots for the nodes that a call has made, the first of them numbered `first`. -/
def slotsFor (first : Nat) (made : List (Held α)) : List (Slot α) :=
  made.zipIdx first |>.map fun (h, i) => ⟨h.run.getD i, h.node⟩

def extend (pool : Pool α) (made : List (Held α)) : Pool α :=
  pool ++ slotsFor pool.length made

def held (pool : Pool α) (slot : Nat) : Except Refusal (Held α) :=
  match pool[slot]? with
  | some s => .ok s.held
  | none => .error (.noSlot slot)

/-- A node that must be a leaf. -/
def leafIn (h : Held α) : Except Refusal (Leaf α) :=
  match h.node with
  | .leaf l => .ok l
  | .part _ => .error .notLeaf

def ofArity {β : Type} : Except ArityError β → Except Refusal β
  | .ok b => .ok b
  | .error e => .error (.arity e)

def ofFault {β : Type} : Except Fault β → Except Refusal β
  | .ok b => .ok b
  | .error why => .error (.fault (pure why))

def ofOutcome {β : Type} : Outcome β → Except Refusal (Logged β)
  | .ok done => .ok done
  | .error why => .error (.fault why)

/-- The leaf in a slot, as it is held and as a leaf. -/
def heldLeaf (pool : Pool α) (slot : Nat) : Except Refusal (Held α × Leaf α) := do
  let h ← pool.held slot
  return (h, ← leafIn h)

/-- The slots of an edit: the siblings as they are held, and the site. Looked up from left to
right. -/
def siteOf (pool : Pool α) (left : Option Nat) (node : Nat) (right : Option Nat) :
    Except Refusal (Option (Held α) × Site α × Option (Held α)) := do
  let left ← left.mapM pool.heldLeaf
  let (_, leaf) ← pool.heldLeaf node
  let right ← right.mapM pool.heldLeaf
  return (left.map (·.1), { left := left.map (·.2), node := leaf, right := right.map (·.2) },
    right.map (·.1))

def found (f : Finding α) : Answer α := { finding := some f }

/-- What a call answers. The pool itself is left as it is. -/
def answer [BEq α] (pool : Pool α) : Call α → Except Refusal (Logged (Answer α))
  | .leaf elems => do
    let h ← ofArity (Carrier.leaf elems)
    return pure { made := [h] }
  | .part elems => do
    let h ← ofArity (Carrier.part elems)
    return pure { made := [h] }
  | .ofElems elems => return (fun made => { made }) <$> LeafFringe.ofElems elems
  | .clone node => do
    let h ← pool.held node
    return pure { made := [h] }
  | .insert left node right pos val => do
    let (l, site, r) ← pool.siteOf left node right
    let done ← ofOutcome (site.insert pos val)
    return (fun how => ⟨how.rebuild l r, some (.branch how.label)⟩) <$> done
  | .remove left node right pos => do
    let (l, site, r) ← pool.siteOf left node right
    let done ← ofOutcome (site.remove pos)
    return (fun how => ⟨how.rebuild l r, some (.branch how.label)⟩) <$> done
  | .slice node pos size => do
    let (_, l) ← pool.heldLeaf node
    let h ← ofFault (Carrier.slice l pos size)
    return pure { made := [h] }
  | .reverse node => do
    let (_, l) ← pool.heldLeaf node
    return pure { made := [Carrier.reverse l] }
  | .set node pos val => do
    let (_, l) ← pool.heldLeaf node
    let h ← ofFault (Carrier.set l pos val)
    return pure { made := [h] }
  | .append nodes node => do
    let out ← nodes.mapM pool.held
    let h ← pool.held node
    return (fun made => ⟨made, some (.next made.length)⟩) <$> LeafFringe.append out h
  | .concat nodes right => do
    let out ← nodes.mapM pool.held
    let right ← right.mapM pool.held
    return (fun made => { made }) <$> LeafFringe.concat out right
  | .get? node pos => do
    let (_, l) ← pool.heldLeaf node
    return pure (found ((l.get? pos).elim .noElem .elem))
  | .get node pos => do
    let (_, l) ← pool.heldLeaf node
    return pure (found (.elem (← ofFault (l.get pos))))
  | .eq a b => do
    let a ← pool.held a
    let b ← pool.held b
    return pure (found (.truth (a.node == b.node)))
  | .hashEq a b => do
    let (_, a) ← pool.heldLeaf a
    let (_, b) ← pool.heldLeaf b
    return pure (found (.truth (a == b)))
  | .sameRun a b => do
    let (a, _) ← pool.heldLeaf a
    let (b, _) ← pool.heldLeaf b
    return pure (found (.truth (a.run == b.run)))
  | .check nodes => do
    let nodes ← nodes.mapM pool.held
    return pure (found (.count (← ofFault (LeafFringe.check (nodes.map Held.node)))))
  | .checkOne node => do
    let h ← pool.held node
    return pure (found (.count h.node.size))
  | .flatten nodes => do
    let nodes ← nodes.mapM pool.held
    return pure (found (.elems (LeafFringe.flatten (nodes.map Held.node))))

/-- The answer to a call, and the pool with the nodes that the call has made. A refused call
leaves the pool as it is. -/
def run [BEq α] (pool : Pool α) (call : Call α) :
    Except Refusal (Logged (Answer α)) × Pool α :=
  match pool.answer call with
  | .ok done => (.ok done, pool.extend done.value.made)
  | .error e => (.error e, pool)

end Pool

end LeafFringe
