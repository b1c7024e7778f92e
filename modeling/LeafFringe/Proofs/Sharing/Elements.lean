import LeafFringe.Proofs.Editing
import LeafFringe.Proofs.Sharing.Answers
import LeafFringe.Proofs.Sharing.Origin

/-!
# The elements that a call hands over

Whatever a call shares, the nodes that it makes hold the elements that the same call would make
of plain lists.
-/

namespace LeafFringe

variable {α κ : Type} [Carrier κ α]

theorem map_node_ofElems (run : List α) :
    (ofElems run : Logged (List κ)).value.map Carrier.node =
      (ofElems run : Logged (List (Node α))).value := by
  simp [ofElems, map_node_concat, Function.comp_def]

theorem Insertion.map_node_rebuild (left right : Option κ) (how : Insertion α) :
    (how.rebuild left right).map Carrier.node =
      how.rebuild (left.map Carrier.node) (right.map Carrier.node) := by
  cases how <;> simp [rebuild, Option.toList_map]

theorem Removal.map_node_rebuild (left right : Option κ) (how : Removal α) :
    (how.rebuild left right).map Carrier.node =
      how.rebuild (left.map Carrier.node) (right.map Carrier.node) := by
  cases how <;> simp [rebuild, Option.toList_map]

namespace Pool

variable {pool : Pool α}

/-- The elements in a list of slots, one after the other. -/
def elemsAt (pool : Pool α) (slots : List Nat) : List α := flatten (pool.nodesAt slots)

/-- The elements of the nodes that a call makes. -/
def elemsOf (pool : Pool α) : Call α → List α
  | .leaf elems => elems
  | .part elems => elems
  | .ofElems elems => elems
  | .clone node => pool.elemsAt [node]
  | .insert left node right pos val =>
    pool.elemsAt left.toList ++ (pool.elemsAt [node]).insertIdx pos val ++
      pool.elemsAt right.toList
  | .remove left node right pos =>
    pool.elemsAt left.toList ++ (pool.elemsAt [node]).eraseIdx pos ++ pool.elemsAt right.toList
  | .slice node pos size => ((pool.elemsAt [node]).drop pos).take size
  | .reverse node => (pool.elemsAt [node]).reverse
  | .set node pos val => (pool.elemsAt [node]).set pos val
  | .append out next => pool.elemsAt out ++ pool.elemsAt [next]
  | .concat left right => pool.elemsAt left ++ pool.elemsAt right
  | _ => []

theorem elemsAt_single {slot : Nat} {n : Node α} (h : pool.node? slot = some n) :
    pool.elemsAt [slot] = n.toList := by
  simp [elemsAt, nodesAt, h]

theorem elemsAt_eq {slots : List Nat} {out : List (Held α)}
    (h : slots.map pool.held? = out.map some) :
    pool.elemsAt slots = flatten (out.map Held.node) := by
  rw [elemsAt, nodesAt_eq h]

theorem elemsAt_sibling {slot : Option Nat} {sibling : Option (Held α)}
    (h : slot.map pool.held? = sibling.map some) :
    pool.elemsAt slot.toList = flatten (sibling.map Held.node).toList := by
  have hslots : slot.toList.map pool.held? = sibling.toList.map some := by
    rw [← Option.toList_map, h, Option.toList_map]
  rw [elemsAt_eq hslots, Option.toList_map]

theorem IsSiteOf.elemsAt_siblings {left right : Option Nat} {node : Nat} {l r : Option (Held α)}
    {site : Site α} (h : pool.IsSiteOf left node right l site r) (run : List α) :
    pool.elemsAt left.toList ++ run ++ pool.elemsAt right.toList =
      flatten (site.left.map Node.leaf).toList ++ run ++
        flatten (site.right.map Node.leaf).toList := by
  rw [elemsAt_sibling h.left, elemsAt_sibling h.right, h.leftLeaf, h.rightLeaf]

theorem elemsOf_of_looksUp {call : Call α} (h : call.looksUp = true) : pool.elemsOf call = [] := by
  cases call with
  | get? | get | eq | hashEq | sameRun | check | checkOne | flatten => rfl
  | _ => cases h

/-- The nodes that a call makes hold the elements that are due. -/
theorem Makes.flatten_eq {call : Call α} {made : List (Held α)} (h : Makes pool call made) :
    flatten (made.map Held.node) = pool.elemsOf call := by
  cases h with
  | leaf l => simp [elemsOf]
  | part p => simp [elemsOf]
  | ofElems elems =>
    exact (congrArg flatten (map_node_ofElems elems)).trans (flatten_ofElems elems)
  | @clone node c hc =>
    have hnode : pool.node? node = some c.node := by rw [← map_node_held?, hc, Option.map_some]
    simp [elemsOf, elemsAt_single hnode]
  | @insert left right node pos val l r site done hsite hdone =>
    obtain ⟨-, hsettles⟩ := Site.settles_of_insert hdone
    rw [elemsOf, elemsAt_single hsite.node, hsite.elemsAt_siblings, Node.toList_leaf,
      ← hsettles.flatten_rebuild, ← hsite.leftLeaf, ← hsite.rightLeaf]
    exact congrArg flatten (done.value.map_node_rebuild l r)
  | @remove left right node pos l r site done hsite hdone =>
    obtain ⟨-, hrecovers⟩ := Site.recovers_of_remove hdone
    rw [elemsOf, elemsAt_single hsite.node, hsite.elemsAt_siblings, Node.toList_leaf,
      ← hrecovers.flatten_rebuild, ← hsite.leftLeaf, ← hsite.rightLeaf]
    exact congrArg flatten (done.value.map_node_rebuild l r)
  | slice hl hn => simp [elemsOf, elemsAt_single hl, hn]
  | reverse hl => simp [elemsOf, elemsAt_single hl]
  | set hl hnew => simp [elemsOf, elemsAt_single hl, hnew]
  | @append out next nodes c hout hc =>
    have hlast : [next].map pool.held? = [c].map some := by simp [hc]
    have happend : (LeafFringe.append nodes c).value.map Held.node =
        (LeafFringe.append (nodes.map Held.node) c.node).value := map_node_append nodes c
    rw [elemsOf, elemsAt_eq hout, elemsAt_eq hlast, ← flatten_concat]
    simp [happend]
  | concat hleft hright =>
    rw [elemsOf, elemsAt_eq hleft, elemsAt_eq hright]
    exact (congrArg flatten (map_node_concat _ _)).trans (flatten_concat _ _)
  | looked hcall => rw [elemsOf_of_looksUp hcall, List.map_nil, flatten_nil]

end Pool

end LeafFringe
