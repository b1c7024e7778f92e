import LeafFringe.Proofs.Sharing.Answers
import LeafFringe.Proofs.Sharing.Origin
import LeafFringe.Proofs.Sharing.Siblings

/-!
# What a call hands on

`HandsOn` says which old nodes are among the nodes that a call makes, and at which place. It
looks at plain nodes only: a clone, a sibling that an edit has not changed, a node that stays in
a concatenation. `Makes.traced` is the theorem on marks for all calls together: what is handed
on keeps its mark, and nothing else has one.
-/

namespace LeafFringe

namespace Pool

variable {α : Type}

/-- An edit gives the node in `slot`, one of the siblings, back as number `k` of its nodes. -/
def HandedBack (pool : Pool α) (left right : Option Nat) (nodes : List (Node α))
    (slot k : Nat) : Prop :=
  ((left = some slot ∧ k = 0) ∨ (right = some slot ∧ k + 1 = nodes.length)) ∧
    nodes[k]? = pool.node? slot

/-- The node in `slot`, which is one of those concatenated, stays and ends as number `k`. -/
def StaysAt (pool : Pool α) (left right : List Nat) (slot k : Nat) : Prop :=
  ∃ source, (left ++ right)[source]? = some slot ∧
    Stays (pool.nodesAt left) (pool.nodesAt right) source k

/-- The call makes `nodes`, and number `k` of them is the node in `slot` as it was. -/
def HandsOn (pool : Pool α) (nodes : List (Node α)) (slot k : Nat) : Call α → Prop
  | .clone node => slot = node ∧ k = 0
  | .insert left _ right _ _ => pool.HandedBack left right nodes slot k
  | .remove left _ right _ => pool.HandedBack left right nodes slot k
  | .append out next => pool.StaysAt out [next] slot k
  | .concat left right => pool.StaysAt left right slot k
  | _ => False

/-- The marks of the nodes that a call has made tell exactly what it has handed on. -/
structure Traced (pool : Pool α) (call : Call α) (made : List (Held α)) : Prop where
  /-- What is handed on is held as before. -/
  handedOn : ∀ {slot k : Nat}, pool.HandsOn (made.map Held.node) slot k call →
    ∃ h, made[k]? = some h ∧ pool.held? slot = some h
  /-- Everything else was built. -/
  built : ∀ {k : Nat} {h : Held α}, made[k]? = some h →
    (∃ slot, pool.HandsOn (made.map Held.node) slot k call) ∨ h.run = none

variable {pool : Pool α} {call : Call α}

/-- A call that hands on nothing, and builds all that it makes. -/
theorem Traced.of_built {made : List (Held α)}
    (hcall : ∀ slot k, ¬ pool.HandsOn (made.map Held.node) slot k call)
    (hmade : ∀ h ∈ made, ∃ n, h = Carrier.built n) : Traced pool call made where
  handedOn h := absurd h (hcall _ _)
  built hk := by
    obtain ⟨n, rfl⟩ := hmade _ (List.mem_of_getElem? hk)
    exact .inr rfl

section Edit

variable {left right : Option Nat} {l r : Option (Held α)}

theorem HandedBack.untouched {nodes : List (Node α)} {slot k : Nat}
    (hleft : left.map pool.held? = l.map some) (hright : right.map pool.held? = r.map some)
    (h : pool.HandedBack left right nodes slot k) :
    ∃ c, pool.held? slot = some c ∧ Untouched l r nodes k c := by
  obtain ⟨⟨rfl, hk⟩ | ⟨rfl, hk⟩, hnode⟩ := h
  · obtain ⟨c, rfl, hc⟩ : ∃ c, l = some c ∧ pool.held? slot = some c := by
      simpa [eq_comm] using hleft
    exact ⟨c, hc, .inl ⟨rfl, hk⟩, by rw [hnode, ← map_node_held?, hc]; rfl⟩
  · obtain ⟨c, rfl, hc⟩ : ∃ c, r = some c ∧ pool.held? slot = some c := by
      simpa [eq_comm] using hright
    exact ⟨c, hc, .inr ⟨rfl, hk⟩, by rw [hnode, ← map_node_held?, hc]; rfl⟩

theorem exists_handedBack {nodes : List (Node α)} {k : Nat} {c : Held α}
    (hleft : left.map pool.held? = l.map some) (hright : right.map pool.held? = r.map some)
    (h : Untouched l r nodes k c) : ∃ slot, pool.HandedBack left right nodes slot k := by
  obtain ⟨⟨rfl, hk⟩ | ⟨rfl, hk⟩, hnode⟩ := h
  · obtain ⟨slot, rfl, hc⟩ : ∃ slot, left = some slot ∧ pool.held? slot = some c := by
      simpa using hleft
    exact ⟨slot, .inl ⟨rfl, hk⟩, by rw [hnode, ← map_node_held?, hc]; rfl⟩
  · obtain ⟨slot, rfl, hc⟩ : ∃ slot, right = some slot ∧ pool.held? slot = some c := by
      simpa using hright
    exact ⟨slot, .inr ⟨rfl, hk⟩, by rw [hnode, ← map_node_held?, hc]; rfl⟩

/-- An edit hands its untouched siblings back. -/
theorem Traced.of_rebuilt {made : List (Held α)} (hmade : Rebuilt l r made)
    (hleft : left.map pool.held? = l.map some) (hright : right.map pool.held? = r.map some)
    (hcall : ∀ slot k, pool.HandsOn (made.map Held.node) slot k call ↔
      pool.HandedBack left right (made.map Held.node) slot k) : Traced pool call made where
  handedOn h := by
    obtain ⟨c, hc, huntouched⟩ := ((hcall _ _).mp h).untouched hleft hright
    exact ⟨c, hmade.getElem?_of_untouched huntouched, hc⟩
  built hk := by
    refine (hmade.untouched_or_built hk).imp (fun h => ?_) ?_
    · obtain ⟨slot, hback⟩ := exists_handedBack hleft hright h
      exact ⟨slot, (hcall slot _).mpr hback⟩
    · rintro ⟨n, rfl⟩
      rfl

end Edit

section Concat

variable {left right : List Nat} {out next : List (Held α)}

theorem StaysAt.held {slot k : Nat} (hleft : left.map pool.held? = out.map some)
    (hright : right.map pool.held? = next.map some) (h : pool.StaysAt left right slot k) :
    ∃ c, (concat out next).value[k]? = some c ∧ pool.held? slot = some c := by
  obtain ⟨source, hslot, hstays⟩ := h
  rw [nodesAt_eq hleft, nodesAt_eq hright] at hstays
  obtain ⟨c, hmade, hc⟩ := getElem?_of_stays hstays
  have hheld : ((left ++ right).map pool.held?)[source]? = ((out ++ next).map some)[source]? := by
    rw [List.map_append, hleft, hright, List.map_append]
  rw [List.getElem?_map, List.getElem?_map, hslot, hc] at hheld
  exact ⟨c, hmade, Option.some.inj hheld⟩

theorem exists_staysAt {source k : Nat} (hleft : left.map pool.held? = out.map some)
    (hright : right.map pool.held? = next.map some)
    (h : Stays (out.map Held.node) (next.map Held.node) source k) :
    ∃ slot, pool.StaysAt left right slot k := by
  obtain ⟨c, -, hc⟩ := getElem?_of_stays h
  have hslots : (left ++ right).map pool.held? = (out ++ next).map some := by
    rw [List.map_append, hleft, hright, List.map_append]
  have hlen : (left ++ right).length = (out ++ next).length := by
    simpa using congrArg List.length hslots
  have hin : source < (left ++ right).length := by
    rw [hlen]
    exact (List.getElem?_eq_some_iff.mp hc).1
  refine ⟨(left ++ right)[source], source, List.getElem?_eq_getElem hin, ?_⟩
  rw [nodesAt_eq hleft, nodesAt_eq hright]
  exact h

/-- A concatenation hands on the nodes that stay. -/
theorem Traced.of_concat (hleft : left.map pool.held? = out.map some)
    (hright : right.map pool.held? = next.map some)
    (hcall : ∀ slot k, pool.HandsOn ((concat out next).value.map Held.node) slot k call ↔
      pool.StaysAt left right slot k) : Traced pool call (concat out next).value where
  handedOn h := ((hcall _ _).mp h).held hleft hright
  built hk := by
    refine (stays_or_built hk).imp ?_ ?_
    · rintro ⟨source, hstays⟩
      obtain ⟨slot, hslot⟩ := exists_staysAt hleft hright hstays
      exact ⟨slot, (hcall slot _).mpr hslot⟩
    · rintro ⟨n, rfl⟩
      rfl

end Concat

theorem not_handsOn_of_looksUp {nodes : List (Node α)} (h : call.looksUp = true) (slot k : Nat) :
    ¬ pool.HandsOn nodes slot k call := by
  cases call with
  | get? | get | eq | hashEq | sameRun | check | checkOne | flatten => exact id
  | _ => cases h

/-- Whatever call is answered, the marks of its nodes tell what was handed on. -/
theorem Makes.traced {made : List (Held α)} (h : Makes pool call made) :
    Traced pool call made := by
  cases h with
  | leaf | part | slice | reverse | set => exact .of_built (fun _ _ => id) (by simp)
  | ofElems elems => exact .of_built (fun _ _ => id) (built_of_mem_concat (by simp))
  | @clone node c hc =>
    constructor
    · rintro _ _ ⟨rfl, rfl⟩
      exact ⟨c, rfl, hc⟩
    · intro k _ hk
      exact .inl ⟨node, rfl, by simpa using (List.getElem?_eq_some_iff.mp hk).1⟩
  | insert hsite hdone =>
    exact .of_rebuilt (Site.rebuilt_insert hdone hsite.leftLeaf hsite.rightLeaf) hsite.left
      hsite.right fun _ _ => .rfl
  | remove hsite hdone =>
    exact .of_rebuilt (Site.rebuilt_remove hdone hsite.leftLeaf hsite.rightLeaf) hsite.left
      hsite.right fun _ _ => .rfl
  | @append out next nodes c hout hc =>
    have hlast : [next].map pool.held? = [c].map some := by simp [hc]
    have htraced : Traced pool (.append out next) (LeafFringe.concat nodes [c]).value :=
      .of_concat hout hlast fun _ _ => .rfl
    simpa using htraced
  | concat hleft hright => exact .of_concat hleft hright fun _ _ => .rfl
  | looked hcall => exact .of_built (not_handsOn_of_looksUp hcall) (by simp)

end Pool

end LeafFringe
