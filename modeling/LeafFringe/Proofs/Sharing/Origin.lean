import LeafFringe.Proofs.Fringe.Seam
import Mathlib.Data.List.Induction

/-!
# Which nodes of a concatenation are still the same

A concatenation moves some of its nodes as they are and builds the others. `Stays` says of each
node that was handed in at which place of the output it is found in the end, if it is; it looks
at plain nodes only. Whatever carries the nodes, it is handed on exactly there, and everything
else in the output was built.
-/

namespace LeafFringe

variable {α κ : Type} [Carrier κ α]

/-- Nothing is merged: there is no node before the new one, or both are leaves. -/
def Apart (out : List (Node α)) (next : Node α) : Prop :=
  ∀ last ∈ out.getLast?, last.isPart = false ∧ next.isPart = false

/-- The node in place `source` of `left ++ right` stands in place `target` of their
concatenation: it was there from the start or was pushed there, and was never merged. -/
inductive Stays (left : List (Node α)) : List (Node α) → (source target : Nat) → Prop
  | start {source : Nat} (h : source < left.length) : Stays left [] source source
  | before {right : List (Node α)} {next : Node α} {source target : Nat}
      (h : Stays left right source target)
      (spared : target + 1 < (concat left right).value.length ∨
        Apart (concat left right).value next) :
      Stays left (right ++ [next]) source target
  | pushed {right : List (Node α)} {next : Node α} (h : Apart (concat left right).value next) :
      Stays left (right ++ [next]) (left.length + right.length)
        (concat left right).value.length

theorem stays_nil_iff {left : List (Node α)} {source target : Nat} :
    Stays left [] source target ↔ source < left.length ∧ target = source := by
  constructor
  · intro h
    generalize hnil : ([] : List (Node α)) = right at h
    cases h with
    | start hlt => exact ⟨hlt, rfl⟩
    | before => simp at hnil
    | pushed => simp at hnil
  · rintro ⟨hlt, rfl⟩
    exact .start hlt

theorem stays_snoc_iff {left right : List (Node α)} {next : Node α} {source target : Nat} :
    Stays left (right ++ [next]) source target ↔
      (Stays left right source target ∧ (target + 1 < (concat left right).value.length ∨
        Apart (concat left right).value next)) ∨
      (Apart (concat left right).value next ∧ source = left.length + right.length ∧
        target = (concat left right).value.length) := by
  constructor
  · intro h
    generalize hall : right ++ [next] = all at h
    cases h with
    | start => simp at hall
    | before h spared =>
      obtain ⟨rfl, hnext⟩ := List.append_inj' hall rfl
      cases hnext
      exact .inl ⟨h, spared⟩
    | pushed h =>
      obtain ⟨rfl, hnext⟩ := List.append_inj' hall rfl
      cases hnext
      exact .inr ⟨h, rfl, rfl⟩
  · rintro (⟨h, spared⟩ | ⟨h, rfl, rfl⟩)
    · exact .before h spared
    · exact .pushed h

/-- What is made of two adjoining nodes: both are handed on, or all of it is built. -/
theorem join_cases (last next : κ) :
    ((Carrier.node last).isPart = false ∧ (Carrier.node next).isPart = false ∧
      (join last next).value = [last, next]) ∨
    (¬ ((Carrier.node last).isPart = false ∧ (Carrier.node next).isPart = false) ∧
      ∃ new : List (Node α), (join last next).value = new.map Carrier.built) := by
  rcases (Carrier.node last).seam?_spec (Carrier.node next) with
    ⟨hnone, hlast, hnext⟩ | ⟨run, hsome, -, seam⟩
  · exact .inl ⟨hlast, hnext, by simp [join, hnone]⟩
  · refine .inr ⟨?_, Node.pack run.val run.property, by simp [join, hsome]⟩
    rintro ⟨hlast, hnext⟩
    simp [hlast, hnext] at seam

theorem map_node_join (last next : κ) :
    (join last next).value.map Carrier.node =
      (join (Carrier.node last) (Carrier.node next)).value := by
  unfold join
  simp only [Carrier.node_node]
  split
  · simp
  · simp [Function.comp_def]

theorem map_node_append (out : List κ) (next : κ) :
    (append out next).value.map Carrier.node =
      (append (out.map Carrier.node) (Carrier.node next)).value := by
  rcases List.eq_nil_or_concat out with rfl | ⟨settled, last, rfl⟩
  · simp
  · rw [List.concat_eq_append, append_snoc, List.map_append, List.map_singleton, append_snoc]
    simp [map_node_join]

/-- What carries the nodes makes no difference to the nodes. -/
theorem map_node_concat (left right : List κ) :
    (concat left right).value.map Carrier.node =
      (concat (left.map Carrier.node) (right.map Carrier.node)).value := by
  induction right generalizing left with
  | nil => simp
  | cons next right ih =>
    rw [List.map_cons, concat_cons, concat_cons, Logged.value_bind, Logged.value_bind, ih,
      map_node_append]

theorem value_append_of_apart {out : List κ} {next : κ}
    (h : Apart (out.map Carrier.node) (Carrier.node next)) :
    (append out next).value = out ++ [next] := by
  rcases List.eq_nil_or_concat out with rfl | ⟨settled, last, rfl⟩
  · simp
  · rw [List.concat_eq_append] at h ⊢
    have hleaves := h (Carrier.node last) (by simp)
    rw [append_snoc, Logged.value_map]
    rcases join_cases last next with ⟨-, -, hjoin⟩ | ⟨hnot, -⟩
    · rw [hjoin, List.append_assoc, List.singleton_append]
    · exact absurd hleaves hnot

theorem value_append_of_not_apart {out : List κ} {next : κ}
    (h : ¬ Apart (out.map Carrier.node) (Carrier.node next)) :
    ∃ settled last, out = settled ++ [last] ∧
      ∃ new : List (Node α), (append out next).value = settled ++ new.map Carrier.built := by
  rcases List.eq_nil_or_concat out with rfl | ⟨settled, last, rfl⟩
  · exact absurd (by simp [Apart]) h
  · rw [List.concat_eq_append] at h ⊢
    rcases join_cases last next with ⟨hlast, hnext, -⟩ | ⟨-, new, hjoin⟩
    · refine absurd ?_ h
      intro l hl
      simp only [List.map_append, List.map_cons, List.map_nil, List.getLast?_append,
        List.getLast?_singleton, Option.some_or, Option.mem_some_iff] at hl
      exact hl ▸ ⟨hlast, hnext⟩
    · exact ⟨settled, last, rfl, new, by rw [append_snoc, Logged.value_map, hjoin]⟩

/-- Before the last node of an output nothing changes, and nothing at all if nothing is merged. -/
theorem getElem?_value_append {out : List κ} {next : κ} {target : Nat} (hin : target < out.length)
    (spared : target + 1 < out.length ∨ Apart (out.map Carrier.node) (Carrier.node next)) :
    (append out next).value[target]? = out[target]? := by
  by_cases apart : Apart (out.map Carrier.node) (Carrier.node next)
  · rw [value_append_of_apart apart, List.getElem?_append_left hin]
  · obtain ⟨settled, last, rfl, new, happend⟩ := value_append_of_not_apart apart
    have hsettled := spared.resolve_right apart
    rw [List.length_append, List.length_singleton] at hsettled
    rw [happend, List.getElem?_append_left (by omega), List.getElem?_append_left (by omega)]

/-- What is found in an output was there before and is spared, or comes last, or was built. -/
theorem spared_or_built {out : List κ} {next : κ} {target : Nat} {c : κ}
    (h : (append out next).value[target]? = some c) :
    (target < out.length ∧
      (target + 1 < out.length ∨ Apart (out.map Carrier.node) (Carrier.node next))) ∨
    (Apart (out.map Carrier.node) (Carrier.node next) ∧ target = out.length) ∨
    ∃ n, c = Carrier.built n := by
  have hlen := (List.getElem?_eq_some_iff.mp h).1
  by_cases apart : Apart (out.map Carrier.node) (Carrier.node next)
  · rw [value_append_of_apart apart, List.length_append, List.length_singleton] at hlen
    rcases Nat.lt_or_ge target out.length with hlt | hge
    · exact .inl ⟨hlt, .inr apart⟩
    · exact .inr (.inl ⟨apart, by omega⟩)
  · obtain ⟨settled, last, rfl, new, happend⟩ := value_append_of_not_apart apart
    rw [List.length_append, List.length_singleton]
    rcases Nat.lt_or_ge target settled.length with hlt | hge
    · exact .inl ⟨by omega, .inl (by omega)⟩
    · rw [happend, List.getElem?_append_right hge] at h
      obtain ⟨n, -, hn⟩ := List.mem_map.mp (List.mem_of_getElem? h)
      exact .inr (.inr ⟨n, hn.symm⟩)

theorem value_concat_snoc (left right : List κ) (next : κ) :
    (concat left (right ++ [next])).value = (append (concat left right).value next).value := by
  rw [concat_append, Logged.value_bind, concat_cons, Logged.value_bind, concat_nil,
    Logged.value_pure]

/-- Where a node stays, that which carried it is found. -/
theorem getElem?_of_stays {left right : List κ} {source target : Nat}
    (h : Stays (left.map Carrier.node) (right.map Carrier.node) source target) :
    ∃ c, (concat left right).value[target]? = some c ∧ (left ++ right)[source]? = some c := by
  induction right using List.reverseRecOn generalizing source target with
  | nil =>
    rw [List.map_nil, stays_nil_iff, List.length_map] at h
    obtain ⟨hlt, rfl⟩ := h
    exact ⟨left[target], by simp [hlt], by simp [hlt]⟩
  | append_singleton right next ih =>
    rw [List.map_append, List.map_singleton, stays_snoc_iff, ← map_node_concat, List.length_map,
      List.length_map, List.length_map] at h
    rw [value_concat_snoc, ← List.append_assoc]
    rcases h with ⟨hstays, spared⟩ | ⟨apart, rfl, rfl⟩
    · obtain ⟨c, htarget, hsource⟩ := ih hstays
      have hin := (List.getElem?_eq_some_iff.mp htarget).1
      refine ⟨c, (getElem?_value_append hin spared).trans htarget, ?_⟩
      rw [List.getElem?_append_left (List.getElem?_eq_some_iff.mp hsource).1]
      exact hsource
    · exact ⟨next, by simp [value_append_of_apart apart], by simp⟩

/-- Whatever is found in the output is a node that stays there, or was built. -/
theorem stays_or_built {left right : List κ} {target : Nat} {c : κ}
    (h : (concat left right).value[target]? = some c) :
    (∃ source, Stays (left.map Carrier.node) (right.map Carrier.node) source target) ∨
      ∃ n, c = Carrier.built n := by
  induction right using List.reverseRecOn generalizing target c with
  | nil =>
    rw [concat_nil, Logged.value_pure] at h
    refine .inl ⟨target, .start ?_⟩
    rw [List.length_map]
    exact (List.getElem?_eq_some_iff.mp h).1
  | append_singleton right next ih =>
    rw [value_concat_snoc] at h
    simp only [List.map_append, List.map_singleton, stays_snoc_iff, ← map_node_concat,
      List.length_map]
    rcases spared_or_built h with ⟨hin, spared⟩ | ⟨apart, rfl⟩ | hbuilt
    · rw [getElem?_value_append hin spared] at h
      refine (ih h).imp_left ?_
      rintro ⟨source, hstays⟩
      exact ⟨source, .inl ⟨hstays, spared⟩⟩
    · exact .inl ⟨_, .inr ⟨apart, rfl, rfl⟩⟩
    · exact .inr hbuilt

/-- Of nothing but new nodes only new nodes are made. -/
theorem built_of_mem_concat {left right : List κ}
    (h : ∀ c ∈ left ++ right, ∃ n, c = Carrier.built n) :
    ∀ c ∈ (concat left right).value, ∃ n, c = Carrier.built n := by
  intro c hc
  obtain ⟨target, htarget⟩ := List.mem_iff_getElem?.mp hc
  rcases stays_or_built htarget with ⟨source, hstays⟩ | hbuilt
  · obtain ⟨found, hfound, hsource⟩ := getElem?_of_stays hstays
    obtain rfl : c = found := Option.some.inj (htarget.symm.trans hfound)
    exact h c (List.mem_of_getElem? hsource)
  · exact hbuilt

end LeafFringe
