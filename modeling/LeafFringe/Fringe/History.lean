import LeafFringe.Fringe.Edit

/-!
# Versions of a sequence

Nodes never change, so any version of a fringe can be kept and returned to.
-/

namespace LeafFringe

variable {α : Type}

/-- A sequence with the versions that were set aside. -/
structure History (α : Type) where
  nodes : List (Node α)
  snapshots : List (List (Node α)) := []

namespace History

inductive Command (α : Type) where
  | edit (e : Edit α)
  | snapshot
  /-- Goes back to a snapshot, counted modulo their number. -/
  | restore (pos : Nat)

def start (elems : List α) : History α where
  nodes := (ofElems elems).value

/-- Carries out one command. The change is that of the leaf that an edit went to. -/
def step (h : History α) : Command α → Outcome (History α × Option (Change α))
  | .edit e => (fun r => ({ h with nodes := r.nodes }, r.change)) <$> e.apply h.nodes
  | .snapshot => .ok (pure ({ h with snapshots := h.snapshots ++ [h.nodes] }, none))
  | .restore pos =>
    .ok (pure ({ h with
      nodes := h.snapshots[pos % h.snapshots.length]?.getD h.nodes }, none))

end History

end LeafFringe
