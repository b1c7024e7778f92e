import LeafFringe.Proofs.Fringe.Seam
import Mathlib.Data.List.Forall2
import Mathlib.Data.List.Infix

/-!
# What a concatenation reports

A concatenation reports each partial leaf that finds a node before it, and no leaf. The total in
the report is what the output ends with right afterwards, in one node or two; how much that is
depends on all that was merged and shared out before.
-/

namespace LeafFringe

variable {α : Type}

/-- A node that is appended, and those that were appended before it. -/
structure Stage (α : Type) where
  before : List (Node α)
  next : Node α

/-- The same stage, with one node more at the start. -/
def Stage.behind (n : Node α) (stage : Stage α) : Stage α where
  before := n :: stage.before
  next := stage.next

/-- The nodes of a list, each behind those that come before it. -/
def stages (right : List (Node α)) : List (Stage α) := List.zipWith Stage.mk right.inits right

/-- The partial leaves of `right` in their order, but for its first node if there is none in
`left`. -/
def absorbing (left right : List (Node α)) : List (Stage α) :=
  ((stages right).drop (if left.isEmpty then 1 else 0)).filter fun stage => stage.next.isPart

/-- The line about a partial leaf `part` that is appended to `out` and makes `new` of it: its size,
and the number of elements that the last one or two nodes of `new` hold. -/
def Absorption (name : String) (out : List (Node α)) (part : Node α) (new : List (Node α))
    (line : String) : Prop :=
  ∃ last ∈ out.getLast?, ∃ total, total = part.size + last.size ∧
    total ≤ maxLeaf + minLeaf - 1 ∧
    line = name ++ ": absorbing a partial leaf of " ++ toString part.size ++
      " into its predecessor (" ++ toString total ++ " total)" ∧
    ∃ made, new = out.dropLast ++ made ∧ (made.length = 1 ∨ made.length = 2) ∧
      totalSize made = total

/-- The line about one stage of a concatenation, between the outputs before and after it. -/
def Stage.Reported (name : String) (left : List (Node α)) (stage : Stage α) (line : String) :
    Prop :=
  Absorption name (concat left stage.before).value stage.next
    (concat left (stage.before ++ [stage.next])).value line

theorem stages_cons (next : Node α) (right : List (Node α)) :
    stages (next :: right) = ⟨[], next⟩ :: (stages right).map (Stage.behind next) := by
  simp [stages, List.zipWith_map_left, List.map_zipWith, Stage.behind]

theorem map_next_stages (right : List (Node α)) : (stages right).map Stage.next = right := by
  induction right with
  | nil => rfl
  | cons next right ih => simpa [stages_cons, Function.comp_def, Stage.behind] using ih

theorem map_next_absorbing (left right : List (Node α)) :
    (absorbing left right).map Stage.next =
      (right.drop (if left.isEmpty then 1 else 0)).filter Node.isPart := by
  conv_rhs => rw [← map_next_stages right, ← List.map_drop, List.filter_map]
  rfl

/-- The stages behind the first node are those of what is appended to its output. -/
theorem reported_behind {name : String} {left : List (Node α)} {next : Node α}
    {todo : List (Stage α)} {lines : List String}
    (h : List.Forall₂ (Stage.Reported name (append left next).value) todo lines) :
    List.Forall₂ (Stage.Reported name left) (todo.map (Stage.behind next)) lines := by
  rw [List.forall₂_map_left_iff]
  refine h.imp fun stage line hline => ?_
  simpa [Stage.Reported, Stage.behind] using hline

theorem trace_concat_cons (name : String) (left right : List (Node α)) (next : Node α) :
    (concat left (next :: right)).trace name =
      (append left next).trace name ++ (concat (append left next).value right).trace name := by
  simp [Logged.trace]

theorem events_append_of_leaf (out : List (Node α)) {next : Node α} (h : next.isPart = false) :
    (append out next).events = [] := by
  rcases List.eq_nil_or_concat' out with rfl | ⟨settled, last, rfl⟩
  · simp
  · rw [events_append_snoc]
    exact (absorption_eq_nil_iff last next).mpr h

/-- A partial leaf that finds a node before it is reported. -/
theorem exists_absorption (name : String) {out : List (Node α)} (hne : out ≠ []) {part : Node α}
    (h : part.isPart = true) :
    ∃ line, (append out part).trace name = [line] ∧
      Absorption name out part (append out part).value line := by
  obtain ⟨settled, last, rfl⟩ := (List.eq_nil_or_concat' out).resolve_left hne
  have hj := joined_join last part
  have hshort := part.isPart_iff.mp h
  have hfits := last.size_le_maxLeaf
  have hevents : (append (settled ++ [last]) part).events =
      [.absorbed part.size (last.size + part.size)] := by
    rw [events_append_snoc, Node.absorption, if_pos h]
  refine ⟨_, by rw [Logged.trace, hevents]; rfl, last, by simp, last.size + part.size,
    Nat.add_comm _ _, by omega, rfl, (join last part).value, ?_, ?_, hj.totalSize_eq⟩
  · rw [List.dropLast_concat, value_append_snoc]
  · have hlen := hj.length_bounds
    omega

/-- Behind a node every partial leaf is reported at its stage. -/
theorem reported_of_ne_nil (name : String) {left : List (Node α)} (hne : left ≠ [])
    (right : List (Node α)) :
    List.Forall₂ (Stage.Reported name left) ((stages right).filter fun stage => stage.next.isPart)
      ((concat left right).trace name) := by
  induction right generalizing left with
  | nil =>
    rw [concat_nil]
    exact .nil
  | cons next right ih =>
    have hrest := reported_behind (ih (append_value_ne_nil left next))
    rw [trace_concat_cons, stages_cons, List.filter_cons, List.filter_map]
    cases hnext : next.isPart with
    | false =>
      rw [Logged.trace, events_append_of_leaf left hnext]
      exact hrest
    | true =>
      obtain ⟨line, htrace, hline⟩ := exists_absorption name hne hnext
      have hfirst : Stage.Reported name left ⟨[], next⟩ line := by
        simpa [Stage.Reported] using hline
      rw [htrace]
      exact .cons hfirst hrest

theorem reported_absorbing (name : String) (left right : List (Node α)) :
    List.Forall₂ (Stage.Reported name left) (absorbing left right)
      ((concat left right).trace name) := by
  rcases eq_or_ne left [] with rfl | hne
  · cases right with
    | nil =>
      rw [concat_nil]
      exact .nil
    | cons next right =>
      -- the first node is pushed as it is, and every other one finds a node before it
      have hrest := reported_behind (reported_of_ne_nil name (append_value_ne_nil [] next) right)
      have hpushed : (append [] next).trace name = [] := by simp [Logged.trace]
      rw [absorbing, List.isEmpty_nil, if_pos rfl, stages_cons, List.drop_one, List.tail_cons,
        List.filter_map, trace_concat_cons, hpushed]
      exact hrest
  · have hleft : left.isEmpty = false := by simpa using hne
    rw [absorbing, hleft, if_neg Bool.false_ne_true, List.drop_zero]
    exact reported_of_ne_nil name hne right

theorem counter_of_mem_append {out : List (Node α)} {next : Node α} {event : Event}
    (h : event ∈ (append out next).events) : event.counter = "leaf::append::absorb_partial" := by
  rcases List.eq_nil_or_concat' out with rfl | ⟨settled, last, rfl⟩
  · simp at h
  · rw [events_append_snoc, Node.absorption] at h
    split at h
    · rw [List.mem_singleton.mp h, Event.counter]
    · cases h

theorem counter_of_mem_concat {left right : List (Node α)} {event : Event}
    (h : event ∈ (concat left right).events) :
    event.counter = "leaf::append::absorb_partial" := by
  induction right generalizing left with
  | nil => simp at h
  | cons next right ih =>
    rw [concat_cons, Logged.events_bind, List.mem_append] at h
    exact h.elim counter_of_mem_append ih

/-- What a concatenation `done` of `left` and `right` reports. -/
structure ReportsAbsorptions (name : String) (left right : List (Node α))
    (done : Logged (List (Node α))) : Prop where
  /-- One for each partial leaf of `right`, but for a first node that is pushed as it is. -/
  parts : (absorbing left right).map Stage.next =
    (right.drop (if left.isEmpty then 1 else 0)).filter Node.isPart
  lines : List.Forall₂ (Stage.Reported name left) (absorbing left right) (done.trace name)
  counters : done.counters =
    List.replicate (absorbing left right).length "leaf::append::absorb_partial"

/-- Each partial leaf that finds a node before it leaves one line and one increment, in the order
of the nodes, and nothing else does. -/
theorem concat_reports_absorptions (name : String) (left right : List (Node α)) :
    ReportsAbsorptions name left right (concat left right) where
  parts := map_next_absorbing left right
  lines := reported_absorbing name left right
  counters := by
    have hlength := (reported_absorbing name left right).length_eq
    refine List.eq_replicate_iff.mpr ⟨?_, ?_⟩
    · rw [hlength, Logged.length_trace]
    · intro counter hcounter
      obtain ⟨event, hevent, rfl⟩ := List.mem_map.mp hcounter
      exact counter_of_mem_concat hevent

/-- Three elements are pushed as they are, three more make six of them, a full leaf is halved
with the six without a line, and seven elements meet the second half. -/
example :
    let part (n : Nat) (h : n < minLeaf) : Node Nat :=
      .part ⟨List.range n, by simpa using h⟩
    let full : Node Nat := .leaf ⟨List.range 15, by decide, by decide⟩
    (concat [] [part 3 (by decide), part 3 (by decide), full, part 7 (by decide)]).events =
      [.absorbed 3 6, .absorbed 7 18] := by
  decide

end LeafFringe
