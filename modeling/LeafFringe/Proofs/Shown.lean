import LeafFringe.Proofs.Element
import LeafFringe.Proofs.Text.Quoted

/-!
# Values are told by what is shown of them

Items are shown without their variants, with commas between them. The text of an item is in
quotes, or has neither quotes nor the marks of a value in it, so that every text of a value falls
apart into the texts of its items in one way only, doubles among them or not. Items that are no
doubles are told by their texts, and so are values without doubles.
-/

namespace LeafFringe

open Json

namespace Text

/-- What stands behind an item: a mark that separates or closes. -/
inductive Closes : List Char → Prop
  | comma (rest : List Char) : Closes (',' :: rest)
  | parenthesis (rest : List Char) : Closes (')' :: rest)

theorem Closes.exists_cons {rest : List Char} (h : Closes rest) :
    ∃ mark more, rest = mark :: more ∧ (mark = ',' ∨ mark = ')') := by
  cases h with
  | comma more => exact ⟨',', more, rfl, .inl rfl⟩
  | parenthesis more => exact ⟨')', more, rfl, .inr rfl⟩

/-- Texts that tell where they end, if a mark stands behind them. -/
inductive Part : List Char → Prop
  | bare {text : List Char} (hne : text ≠ []) (hquote : '"' ∉ text) (hcomma : ',' ∉ text)
      (hparenthesis : ')' ∉ text) : Part text
  | quoted (s : List Char) : Part (quote s)

namespace Part

variable {a b rest rest' : List Char}

/-- A part is not taken for the end of a value. -/
theorem exists_cons (h : Part a) : ∃ first more, a = first :: more ∧ first ≠ ')' := by
  cases h with
  | bare hne _ _ hparenthesis =>
    obtain ⟨first, more, rfl⟩ := List.exists_cons_of_ne_nil hne
    exact ⟨first, more, rfl, (List.ne_of_not_mem_cons hparenthesis).symm⟩
  | quoted s => exact ⟨'"', _, rfl, by decide⟩

theorem quote_append_ne {s : List Char} (hne : a ≠ []) (hquote : '"' ∉ a) :
    quote s ++ rest ≠ a ++ rest' := by
  obtain ⟨first, more, rfl⟩ := List.exists_cons_of_ne_nil hne
  intro h
  exact List.ne_of_not_mem_cons hquote (List.cons.inj h).1

theorem append_inj (ha : Part a) (hb : Part b) (hrest : Closes rest) (hrest' : Closes rest')
    (h : a ++ rest = b ++ rest') : a = b ∧ rest = rest' := by
  -- a bare text ends before the first mark, one in quotes where these are closed
  cases ha with
  | bare hne hquote hcomma hparenthesis =>
    cases hb with
    | bare _ _ hcomma' hparenthesis' =>
      obtain ⟨x, more, rfl, hx⟩ := hrest.exists_cons
      obtain ⟨y, more', rfl, hy⟩ := hrest'.exists_cons
      have hxb : x ∉ b := by rcases hx with rfl | rfl <;> assumption
      have hya : y ∉ a := by rcases hy with rfl | rfl <;> assumption
      obtain ⟨hab, rfl, rfl⟩ := append_cons_inj hya hxb h
      exact ⟨hab, rfl⟩
    | quoted t => exact absurd h.symm (quote_append_ne hne hquote)
  | quoted s =>
    cases hb with
    | bare hne hquote => exact absurd h (quote_append_ne hne hquote)
    | quoted t =>
      obtain ⟨rfl, hrest⟩ := quote_append_inj h
      exact ⟨rfl, hrest⟩

end Part

/-- More parts behind a first one, up to the end of the value, and what follows that. -/
def following : List (List Char) → List Char → List Char
  | [], rest => ')' :: rest
  | a :: parts, rest => ',' :: ' ' :: (a ++ following parts rest)

theorem closes_following (parts : List (List Char)) (rest : List Char) :
    Closes (following parts rest) := by
  cases parts with
  | nil => exact .parenthesis rest
  | cons a parts => exact .comma _

theorem intercalate_append (a : List Char) (parts : List (List Char)) (rest : List Char) :
    List.intercalate [',', ' '] (a :: parts) ++ ')' :: rest = a ++ following parts rest := by
  induction parts generalizing a with
  | nil => simp [following]
  | cons b parts ih =>
    rw [List.intercalate_cons_cons, List.append_assoc, List.append_assoc, ih b]
    rfl

variable {l m : List (List Char)} {rest rest' : List Char}

/-- The mark behind a part tells whether it is the last one. -/
theorem following_inj (hl : ∀ a ∈ l, Part a) (hm : ∀ b ∈ m, Part b)
    (h : following l rest = following m rest') : l = m ∧ rest = rest' := by
  induction l generalizing m with
  | nil =>
    cases m with
    | nil => exact ⟨rfl, (List.cons.inj h).2⟩
    | cons b m => exact absurd (List.cons.inj h).1 (by decide)
  | cons a l ih =>
    cases m with
    | nil => exact absurd (List.cons.inj h).1 (by decide)
    | cons b m =>
      obtain ⟨ha, hl'⟩ := List.forall_mem_cons.mp hl
      obtain ⟨hb, hm'⟩ := List.forall_mem_cons.mp hm
      have hparts := (List.cons.inj (List.cons.inj h).2).2
      obtain ⟨rfl, hmore⟩ :=
        ha.append_inj hb (closes_following l rest) (closes_following m rest') hparts
      obtain ⟨rfl, hrest⟩ := ih hl' hm' hmore
      exact ⟨rfl, hrest⟩

/-- Parts in parentheses fall apart in one way only. -/
theorem intercalate_inj (hl : ∀ a ∈ l, Part a) (hm : ∀ b ∈ m, Part b)
    (h : List.intercalate [',', ' '] l ++ ')' :: rest =
      List.intercalate [',', ' '] m ++ ')' :: rest') : l = m ∧ rest = rest' := by
  cases l with
  | nil =>
    cases m with
    | nil => exact ⟨rfl, (List.cons.inj h).2⟩
    | cons b m =>
      obtain ⟨first, more, rfl, hfirst⟩ := (hm b List.mem_cons_self).exists_cons
      rw [intercalate_append] at h
      exact absurd (List.cons.inj h).1.symm hfirst
  | cons a l =>
    cases m with
    | nil =>
      obtain ⟨first, more, rfl, hfirst⟩ := (hl a List.mem_cons_self).exists_cons
      rw [intercalate_append] at h
      exact absurd (List.cons.inj h).1 hfirst
    | cons b m =>
      obtain ⟨ha, hl'⟩ := List.forall_mem_cons.mp hl
      obtain ⟨hb, hm'⟩ := List.forall_mem_cons.mp hm
      rw [intercalate_append, intercalate_append] at h
      obtain ⟨rfl, hmore⟩ :=
        ha.append_inj hb (closes_following l rest) (closes_following m rest') h
      obtain ⟨rfl, hrest⟩ := following_inj hl' hm' hmore
      exact ⟨rfl, hrest⟩

end Text

namespace Item

open Text

theorem notMem_of_marks {text : List Char} (h : Numeral.Marks text) {c : Char}
    (hc : ¬ Numeral.IsMark c) : c ∉ text :=
  fun hmem => hc (h c hmem)

theorem part_of_marks {text : List Char} (hne : text ≠ []) (h : Numeral.Marks text) :
    Part text := by
  apply Part.bare hne <;> apply notMem_of_marks h <;> simp [Numeral.IsMark]

theorem part_write (f : Decimal.Notation) (d : Double) : Part (d.write f) := by
  unfold Double.write
  split
  · apply Part.bare <;> decide
  · split
    · split <;> apply Part.bare <;> decide
    · exact part_of_marks (Numeral.writeFinite_ne_nil f d) (Numeral.marks_writeFinite f d)

theorem part_text (i : Item) : Part i.text := by
  cases i with
  | boolean b => cases b <;> apply Part.bare <;> decide
  | integer i =>
    exact part_of_marks (Numeral.writeInt_ne_nil i.toInt) (Numeral.marks_writeInt i.toInt)
  | double d => exact part_write Double.shown d
  | string s => exact .quoted s.toList

theorem writeBool_injective : Function.Injective writeBool := by
  intro b b' h
  cases b <;> cases b' <;> first | rfl | cases h

theorem writeBool_ne_writeInt (b : Bool) (i : Int) : writeBool b ≠ writeInt i := by
  intro h
  have hmarks := h ▸ Numeral.marks_writeInt i
  cases b <;> simp [writeBool, Numeral.IsMark] at hmarks

theorem quote_ne_writeBool (s : List Char) (b : Bool) : quote s ≠ writeBool b := by
  intro h
  cases b <;> cases (List.cons.inj h).1

theorem quote_ne_writeInt (s : List Char) (i : Int) : quote s ≠ writeInt i := by
  intro h
  have hmarks := h ▸ Numeral.marks_writeInt i
  exact notMem_of_marks hmarks (by simp [Numeral.IsMark]) List.mem_cons_self

/-- Items that are no doubles are told by their texts. -/
theorem text_inj {i j : Item} (hi : i.isDouble = false) (hj : j.isDouble = false)
    (h : i.text = j.text) : i = j := by
  cases i with
  | boolean b =>
    cases j with
    | boolean b' => exact congrArg boolean (writeBool_injective h)
    | integer n => exact absurd h (writeBool_ne_writeInt b n.toInt)
    | double d => cases hj
    | string s => exact absurd h.symm (quote_ne_writeBool s.toList b)
  | integer n =>
    cases j with
    | boolean b => exact absurd h.symm (writeBool_ne_writeInt b n.toInt)
    | integer n' => exact congrArg integer (Int64.toInt_inj.mp (Numeral.writeInt_injective h))
    | double d => cases hj
    | string s => exact absurd h.symm (quote_ne_writeInt s.toList n.toInt)
  | double d => cases hi
  | string s =>
    cases j with
    | boolean b => exact absurd h (quote_ne_writeBool s.toList b)
    | integer n => exact absurd h (quote_ne_writeInt s.toList n.toInt)
    | double d => cases hj
    | string s' => exact congrArg string (String.toList_inj.mp (quote_injective h))

/-- A whole double is shown as the integer is. -/
example : (double ⟨0x3ff0000000000000⟩).text = (integer 1).text := by decide +kernel

theorem map_text_inj {l m : List Item} (hl : ∀ i ∈ l, i.isDouble = false)
    (hm : ∀ j ∈ m, j.isDouble = false) (h : l.map text = m.map text) : l = m := by
  induction l generalizing m with
  | nil => exact (List.map_eq_nil_iff.mp h.symm).symm
  | cons i l ih =>
    cases m with
    | nil => cases h
    | cons j m =>
      obtain ⟨hi, hl'⟩ := List.forall_mem_cons.mp hl
      obtain ⟨hj, hm'⟩ := List.forall_mem_cons.mp hm
      obtain ⟨htext, hmore⟩ := List.cons.inj h
      rw [text_inj hi hj htext, ih hl' hm' hmore]

end Item

namespace Value

/-- The text of a value tells the texts of its items and where it ends, whatever follows. -/
theorem text_append_inj {v w : Value} {rest rest' : List Char}
    (h : v.text ++ rest = w.text ++ rest') :
    v.items.map Item.text = w.items.map Item.text ∧ rest = rest' := by
  have hparts (u : Value) : ∀ text ∈ u.items.map Item.text, Text.Part text := by
    intro text htext
    obtain ⟨i, -, rfl⟩ := List.mem_map.mp htext
    exact i.part_text
  simp only [text, List.cons_append, List.append_assoc, List.cons.injEq, true_and,
    List.nil_append] at h
  exact Text.intercalate_inj (hparts v) (hparts w) h

/-- Values are shown alike iff their items are, one by one. -/
theorem text_eq_iff (v w : Value) :
    v.text = w.text ↔ v.items.map Item.text = w.items.map Item.text := by
  constructor
  · intro h
    exact (text_append_inj (congrArg (· ++ []) h)).1
  · intro h
    rw [text, text, h]

end Value

/-- A value without doubles is told by its text: another one is never shown like it. -/
theorem shown_text_determines_value {v w : Value} (hv : ∀ i ∈ v.items, i.isDouble = false)
    (hw : ∀ i ∈ w.items, i.isDouble = false) (h : v.text = w.text) : v = w := by
  have hitems : v.items = w.items := Item.map_text_inj hv hw ((v.text_eq_iff w).mp h)
  cases v
  cases w
  cases hitems
  rfl

/-- A string that looks like three items is not shown as they are, and they are shown as
themselves. -/
theorem shown_text_determines_lookalikes :
    let one : Value := ⟨[.string "a\", 7, \"b"]⟩
    let three : Value := ⟨[.string "a", .integer 7, .string "b"]⟩
    let joined : Value := ⟨[.string "a", .integer 7] ++ [.string "b"]⟩
    (∀ i ∈ one.items, i.isDouble = false) ∧ (∀ i ∈ three.items, i.isDouble = false) ∧
      (∀ i ∈ joined.items, i.isDouble = false) ∧ one.text ≠ three.text ∧
      three.text = joined.text ∧ three = joined := by
  intro one three joined
  have hone : ∀ i ∈ one.items, i.isDouble = false := by decide
  have hthree : ∀ i ∈ three.items, i.isDouble = false := by decide
  have hjoined : ∀ i ∈ joined.items, i.isDouble = false := by decide
  have hdiffer : one.text ≠ three.text := by
    intro h
    have hsize := congrArg Value.size (shown_text_determines_value hone hthree h)
    exact absurd hsize (by decide)
  have hsame : three.text = joined.text := by decide
  exact ⟨hone, hthree, hjoined, hdiffer, hsame, shown_text_determines_value hthree hjoined hsame⟩

end LeafFringe
