import LeafFringe.Json.Reader
import Mathlib.Tactic.Common

/-!
# Where values end

A reader is not told where the text of a value ends. `Reads` says that it gets a value from a
text and stops exactly there, whatever follows; `Needs` says the same of whatever is read, and
that nothing is read unless a condition holds. Both pass from elements to arrays.
-/

namespace LeafFringe.Json

/-- What may follow a value: nothing, or a mark that separates or closes. -/
inductive Ends : List Char → Prop
  | nil : Ends []
  | comma (rest : List Char) : Ends (',' :: rest)
  | bracket (rest : List Char) : Ends (']' :: rest)
  | brace (rest : List Char) : Ends ('}' :: rest)

/-- Texts that start as values do, and not with a blank or the end of an array. -/
def Opens : List Char → Prop
  | [] => False
  | c :: _ => isBlank c = false ∧ c ≠ ']'

theorem skipBlanks_cons {c : Char} (h : isBlank c = false) (rest : List Char) :
    skipBlanks (c :: rest) = c :: rest :=
  List.dropWhile_cons_of_neg (by simp [h])

theorem Opens.skipBlanks_append {text : List Char} (h : Opens text) (rest : List Char) :
    skipBlanks (text ++ rest) = text ++ rest := by
  cases text with
  | nil => cases h
  | cons c text => exact skipBlanks_cons h.1 (text ++ rest)

theorem Opens.append {text : List Char} (h : Opens text) (rest : List Char) :
    Opens (text ++ rest) := by
  cases text with
  | nil => cases h
  | cons c text => exact h

theorem Ends.skipBlanks_eq {rest : List Char} (h : Ends rest) : skipBlanks rest = rest := by
  cases h <;> rfl

namespace Reader

variable {α β : Type}

/-- The reader gets `a` from the text, and stops at its end. -/
def Reads (r : Reader α) (text : List Char) (a : α) : Prop :=
  ∀ rest, Ends rest → r.run (text ++ rest) = .ok (a, rest)

/-- The reader gets nothing from the text unless the condition holds, and if it gets anything
it stops at the end of the text. -/
def Needs (r : Reader α) (text : List Char) (condition : Prop) : Prop :=
  ∀ rest, Ends rest → ∀ a after, r.run (text ++ rest) = .ok (a, after) → condition ∧ after = rest

section Arrays

variable {elem : Reader α}

theorem items_eq (s : List Char) :
    elem.items s =
      match elem.run s with
      | .error e => .error e
      | .ok (a, rest) =>
        match skipBlanks rest with
        | ']' :: after => .ok ([a], after)
        | ',' :: after => (elem.items after).map fun found => (a :: found.1, found.2)
        | _ => .error .malformed := by
  rw [items]
  split
  · rename_i herror
    rw [herror]
  · rename_i hok
    simp only [hok]
    split
    · rename_i hclose
      simp only [hclose]
    · rename_i hcomma
      simp only [hcomma]
    · rename_i hclose hcomma
      split
      · rename_i h
        exact absurd h (hclose _)
      · rename_i h
        exact absurd h (hcomma _)
      · rfl

theorem items_of_last {s after : List Char} {a : α} (h : elem.run s = .ok (a, ']' :: after)) :
    elem.items s = .ok ([a], after) := by
  rw [items_eq, h]
  rfl

theorem items_of_more {s after : List Char} {a : α} (h : elem.run s = .ok (a, ',' :: after)) :
    elem.items s = (elem.items after).map fun found => (a :: found.1, found.2) := by
  rw [items_eq, h]
  rfl

/-- Where elements are read, there is a first one, and it is the only one or a comma and more
elements follow. -/
theorem items_inv {s after : List Char} {found : List α} (h : elem.items s = .ok (found, after)) :
    ∃ a rest, elem.run s = .ok (a, rest) ∧
      (skipBlanks rest = ']' :: after ∨
        ∃ t more, skipBlanks rest = ',' :: t ∧ elem.items t = .ok (more, after)) := by
  rw [items_eq] at h
  split at h
  · cases h
  · rename_i a rest hrun
    refine ⟨a, rest, hrun, ?_⟩
    split at h
    · rename_i hclose
      cases h
      exact .inl hclose
    · rename_i t hcomma
      cases hmore : elem.items t with
      | error e =>
        rw [hmore] at h
        cases h
      | ok more =>
        rw [hmore] at h
        cases h
        exact .inr ⟨t, more.1, hcomma, hmore⟩
    · cases h

theorem list_run_empty (elem : Reader α) (rest : List Char) :
    elem.list.run ('[' :: ']' :: rest) = .ok ([], rest) := rfl

theorem list_run_items (elem : Reader α) {body : List Char} (h : Opens body) :
    elem.list.run ('[' :: body) = elem.items body := by
  cases body with
  | nil => cases h
  | cons c body =>
    have hbody := skipBlanks_cons h.1 body
    simp only [list, skipBlanks_cons (c := '[') rfl, hbody]
    split
    · rename_i hclose
      cases hclose
      exact absurd rfl h.2
    · rfl

variable {l : List β} {write : β → List Char}

theorem opens_items (hne : l ≠ []) (h : ∀ b ∈ l, Opens (write b)) (rest : List Char) :
    Opens (List.intercalate [','] (l.map write) ++ rest) := by
  obtain ⟨b, l, rfl⟩ := List.exists_cons_of_ne_nil hne
  have hb := h b List.mem_cons_self
  cases l with
  | nil => simpa using hb.append rest
  | cons c l =>
    rw [List.map_cons, List.map_cons, List.intercalate_cons_cons, List.append_assoc,
      List.append_assoc]
    exact hb.append _

theorem items_reads {l : List α} {write : α → List Char} (hne : l ≠ [])
    (h : ∀ a ∈ l, elem.Reads (write a) a) (rest : List Char) :
    elem.items (List.intercalate [','] (l.map write) ++ ']' :: rest) = .ok (l, rest) := by
  induction l with
  | nil => exact absurd rfl hne
  | cons a l ih =>
    have ha := h a List.mem_cons_self
    cases l with
    | nil => simpa using items_of_last (ha (']' :: rest) (.bracket rest))
    | cons b l =>
      have hmore := ih (by simp) fun c hc => h c (List.mem_cons_of_mem a hc)
      rw [List.map_cons, List.map_cons, List.intercalate_cons_cons, List.append_assoc,
        List.append_assoc, List.singleton_append, items_of_more (ha _ (.comma _)), ← List.map_cons,
        hmore]
      rfl

theorem items_needs {condition : β → Prop} (hne : l ≠ [])
    (h : ∀ b ∈ l, elem.Needs (write b) (condition b)) (rest : List Char) {found : List α}
    {after : List Char}
    (hrun : elem.items (List.intercalate [','] (l.map write) ++ ']' :: rest) = .ok (found, after)) :
    (∀ b ∈ l, condition b) ∧ after = rest := by
  induction l generalizing found with
  | nil => exact absurd rfl hne
  | cons b l ih =>
    have hb := h b List.mem_cons_self
    cases l with
    | nil =>
      rw [List.map_singleton, List.intercalate_singleton] at hrun
      obtain ⟨a, r, ha, hr⟩ := items_inv hrun
      obtain ⟨hcondition, rfl⟩ := hb _ (.bracket rest) _ _ ha
      rw [(Ends.bracket rest).skipBlanks_eq] at hr
      rcases hr with hclose | ⟨t, more, hcomma, -⟩
      · cases hclose
        exact ⟨by simpa using hcondition, rfl⟩
      · cases hcomma
    | cons c l =>
      rw [List.map_cons, List.map_cons, List.intercalate_cons_cons, List.append_assoc,
        List.append_assoc, List.singleton_append, ← List.map_cons] at hrun
      obtain ⟨a, r, ha, hr⟩ := items_inv hrun
      obtain ⟨hcondition, rfl⟩ := hb _ (.comma _) _ _ ha
      rw [(Ends.comma _).skipBlanks_eq] at hr
      rcases hr with hclose | ⟨t, more, hcomma, hmore⟩
      · cases hclose
      · cases hcomma
        obtain ⟨hall, rfl⟩ := ih (by simp) (fun d hd => h d (List.mem_cons_of_mem b hd)) hmore
        exact ⟨List.forall_mem_cons.mpr ⟨hcondition, hall⟩, rfl⟩

end Arrays

theorem Reads.list {elem : Reader α} {l : List α} {write : α → List Char}
    (hopens : ∀ a ∈ l, Opens (write a)) (h : ∀ a ∈ l, elem.Reads (write a) a) :
    elem.list.Reads (writeArray (l.map write)) l := by
  intro rest hrest
  rcases eq_or_ne l [] with rfl | hne
  · exact list_run_empty elem rest
  · rw [writeArray, List.cons_append, List.append_assoc, list_run_items elem
      (opens_items hne hopens _)]
    exact items_reads hne h rest

theorem Needs.list {elem : Reader α} {l : List β} {write : β → List Char} {condition : β → Prop}
    (hopens : ∀ b ∈ l, Opens (write b)) (h : ∀ b ∈ l, elem.Needs (write b) (condition b)) :
    elem.list.Needs (writeArray (l.map write)) (∀ b ∈ l, condition b) := by
  intro rest hrest found after hrun
  rcases eq_or_ne l [] with rfl | hne
  · obtain ⟨-, rfl⟩ := Prod.mk.inj (Except.ok.inj (hrun.symm.trans (list_run_empty elem rest)))
    exact ⟨by simp, rfl⟩
  · rw [writeArray, List.cons_append, List.append_assoc, list_run_items elem
      (opens_items hne hopens _)] at hrun
    exact items_needs hne h rest hrun

variable {r : Reader α} {text : List Char}

theorem Reads.refine {a : α} {b : β} {f : α → Except ReadError β} (h : r.Reads text a)
    (hf : f a = .ok b) : (r.refine f).Reads text b := by
  intro rest hrest
  simp only [Reader.refine, h rest hrest, hf]
  rfl

theorem Needs.refine {condition : Prop} (h : r.Needs text condition)
    (f : α → Except ReadError β) : (r.refine f).Needs text condition := by
  intro rest hrest b after hrun
  simp only [Reader.refine] at hrun
  split at hrun
  · rename_i a t ha
    obtain ⟨hcondition, rfl⟩ := h rest hrest a t ha
    cases hb : f a with
    | error e =>
      rw [hb] at hrun
      cases hrun
    | ok b' =>
      rw [hb] at hrun
      cases hrun
      exact ⟨hcondition, rfl⟩
  · cases hrun

theorem Reads.ofOption {f : List Char → Option (α × List Char)}
    {hf : ∀ {s a rest}, f s = some (a, rest) → rest.length < s.length} {a : α}
    (hopens : Opens text) (h : ∀ rest, Ends rest → f (text ++ rest) = some (a, rest)) :
    (ofOption f hf).Reads text a := by
  intro rest hrest
  simp only [Reader.ofOption, hopens.skipBlanks_append, h rest hrest]

theorem Needs.ofOption {f : List Char → Option (α × List Char)}
    {hf : ∀ {s a rest}, f s = some (a, rest) → rest.length < s.length} {condition : Prop}
    (hopens : Opens text)
    (h : ∀ rest, Ends rest → ∀ a after, f (text ++ rest) = some (a, after) →
      condition ∧ after = rest) :
    (ofOption f hf).Needs text condition := by
  intro rest hrest a after hrun
  simp only [Reader.ofOption, hopens.skipBlanks_append] at hrun
  split at hrun
  · rename_i hsome
    cases hrun
    exact h rest hrest a after hsome
  · cases hrun

theorem Reads.parse_eq {a : α} (h : r.Reads text a) : r.parse text = .ok a := by
  have hrun := h [] .nil
  rw [List.append_nil] at hrun
  simp only [parse, hrun]
  rfl

theorem Needs.exists_error {condition : Prop} (h : r.Needs text condition)
    (hnot : ¬ condition) : ∃ e, r.parse text = .error e := by
  cases hrun : r.run text with
  | error e => exact ⟨e, by simp only [parse, hrun]⟩
  | ok found =>
    rw [← List.append_nil text] at hrun
    exact absurd (h [] .nil found.1 found.2 hrun).1 hnot

end Reader

end LeafFringe.Json
