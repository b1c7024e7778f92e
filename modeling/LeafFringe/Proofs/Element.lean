import LeafFringe.Element.Value
import LeafFringe.Element.Word
import LeafFringe.Proofs.Json.Numeral
import LeafFringe.Proofs.Json.Quoted

/-!
# Elements are read back

Words, and items and values without doubles, are what is read of their own texts. A double may
be rounded on its way, but its text ends where its reader stops; a number without a finite
value cannot be read at all.
-/

namespace LeafFringe

open Json

namespace Word

theorem opens_json (w : UInt32) : Opens (Element.json w) :=
  (Numeral.marks_toDigits w.toNat).opens Nat.toDigits_ne_nil

theorem json_eq_writeInt (w : UInt32) : Element.json w = writeInt (w.toNat : Int) := by
  simp [Element.json, writeInt]

theorem reads_json (w : UInt32) : Element.reader.Reads (Element.json w) w := by
  apply Reader.Reads.ofOption (opens_json w)
  intro rest hrest
  obtain ⟨n, hscan, hinteger⟩ := Numeral.scan?_writeInt w.toNat hrest
  have hword : ofNumeral? n = some w := by
    rw [ofNumeral?, hinteger]
    exact (if_pos w.toNat_lt).trans (by rw [UInt32.ofNat_toNat])
  rw [json_eq_writeInt]
  simp [numeral?, hscan, hword]

end Word

theorem Double.isFinite_eq (d : Double) : d.isFinite = !(d.isNaN || d.isInfinite) := by
  simp only [Double.isFinite, Double.isNaN, Double.isInfinite, bne, ← Bool.and_or_distrib_left,
    Bool.not_or_self, Bool.and_true]

namespace Item

/-- The item is a floating-point number. -/
def isDouble : Item → Bool
  | double _ => true
  | _ => false

/-- The item is a floating-point number without a finite value. -/
def isNonFinite : Item → Bool
  | double d => d.isNaN || d.isInfinite
  | _ => false

theorem opens_json (i : Item) : Opens (Element.json i) := ⟨rfl, by decide⟩

theorem after?_cons (mark : Char) (h : isBlank mark = false) (rest : List Char) :
    after? mark (mark :: rest) = some rest := by
  rw [after?, skipBlanks_cons h]
  exact if_pos rfl

theorem string?_written (s rest : List Char) :
    string? (writeString s ++ rest) = some (s, rest) := by
  rw [writeString, List.cons_append, List.append_assoc]
  exact readChars_written s rest

/-- An object is read if its payload is, as the variant that it names. -/
theorem object?_json (i : Item) (rest : List Char) :
    object? (i.json ++ rest) =
      (payload? i.variant (skipBlanks (i.payload ++ '}' :: rest))).bind fun found =>
        (after? '}' found.2).bind fun after => some (found.1, after) := by
  have hkey : skipBlanks (writeString i.variant.toList ++ ':' :: (i.payload ++ '}' :: rest)) =
      writeString i.variant.toList ++ ':' :: (i.payload ++ '}' :: rest) := skipBlanks_cons rfl _
  have hjson : i.json ++ rest =
      '{' :: (writeString i.variant.toList ++ ':' :: (i.payload ++ '}' :: rest)) := by
    simp [json]
  rw [hjson, object?, after?_cons '{' rfl]
  simp only [Option.bind_eq_bind, Option.bind_some, hkey, string?_written, after?_cons ':' rfl,
    String.ofList_toList]
  rfl

theorem payload?_integer (i : Int64) {rest : List Char} (h : Ends rest) :
    payload? "Integer" (writeInt i.toInt ++ rest) = some (integer i, rest) := by
  obtain ⟨n, hscan, hinteger⟩ := Numeral.scan?_writeInt i.toInt h
  have hrange := And.intro i.minValue_le_toInt i.toInt_le
  have hof : integerOf? n = some i := by
    simp only [integerOf?, hinteger, Option.bind_eq_bind, Option.bind_some]
    rw [if_pos hrange, Int64.ofInt_toInt]
  simp [payload?, numeral?, hscan, hof]

/-- Whatever is not a double is what is read of its own text. -/
theorem payload?_payload {i : Item} (h : i.isDouble = false) {rest : List Char}
    (hrest : Ends rest) :
    payload? i.variant (skipBlanks (i.payload ++ rest)) = some (i, rest) := by
  cases i with
  | boolean b => cases b <;> rfl
  | integer i =>
    have hopens : Opens (writeInt i.toInt) :=
      (Numeral.marks_writeInt i.toInt).opens (Numeral.writeInt_ne_nil i.toInt)
    rw [payload, hopens.skipBlanks_append]
    exact payload?_integer i hrest
  | double d => cases h
  | string s =>
    have hquoted : skipBlanks (writeString s.toList ++ rest) = writeString s.toList ++ rest :=
      skipBlanks_cons rfl _
    rw [payload, hquoted]
    simp [payload?, variant, string?_written]

theorem reads_json {i : Item} (h : i.isDouble = false) :
    Element.reader.Reads (Element.json i) i := by
  apply Reader.Reads.ofOption (opens_json i)
  intro rest hrest
  refine (object?_json i rest).trans ?_
  rw [payload?_payload h (.brace rest)]
  simp [after?_cons '}' rfl]

/-- The text of a finite number is read to its end, or else what follows is out of place. -/
theorem eq_of_payload?_double {d : Double} (h : d.isFinite = true) {rest s after : List Char}
    {i : Item}
    (hpayload : payload? "Double" (skipBlanks ((double d).payload ++ '}' :: rest)) = some (i, s))
    (hafter : after? '}' s = some after) : after = rest := by
  have hmarks := Numeral.marks_writeFinite Double.stored d
  have hopens : Opens (d.writeFinite Double.stored ++ '}' :: rest) := by
    cases htext : d.writeFinite Double.stored with
    | nil => exact ⟨rfl, by decide⟩
    | cons c text =>
      rw [htext, Numeral.marks_cons] at hmarks
      exact hmarks.1.opens _
  have hskip := hopens.skipBlanks_append []
  rw [List.append_nil] at hskip
  rw [payload, if_pos h, hskip] at hpayload
  have hnumeral : numeral? (fun n => (doubleOf? n).map double)
      (d.writeFinite Double.stored ++ '}' :: rest) = some (i, s) := hpayload
  obtain ⟨left, rfl, hleft⟩ :=
    (Numeral.Advances.of_numeral? hnumeral).append_cons Numeral.not_isMark_brace hmarks
  cases left with
  | nil =>
    rw [List.nil_append, after?_cons '}' rfl] at hafter
    exact (Option.some.inj hafter).symm
  | cons c left =>
    rw [Numeral.marks_cons] at hleft
    have hc : c ≠ '}' := by
      rintro rfl
      exact Numeral.not_isMark_brace hleft.1
    have hblank := (hleft.1.opens left).1
    simp [after?, skipBlanks_cons hblank, hc] at hafter

theorem payload?_null (rest : List Char) : payload? "Double" (skipBlanks (null ++ rest)) = none :=
  rfl

theorem needs_json (i : Item) :
    (Element.reader (α := Item)).Needs (Element.json i) (i.isNonFinite = false) := by
  apply Reader.Needs.ofOption (opens_json i)
  intro rest hrest a after hrun
  replace hrun := (object?_json i rest).symm.trans hrun
  obtain ⟨⟨b, s⟩, hpayload, hclose⟩ := Option.bind_eq_some_iff.mp hrun
  obtain ⟨t, hafter, heq⟩ := Option.bind_eq_some_iff.mp hclose
  cases heq
  cases hi : i.isDouble with
  | false =>
    rw [payload?_payload hi (.brace rest)] at hpayload
    cases hpayload
    rw [after?_cons '}' rfl] at hafter
    refine ⟨?_, (Option.some.inj hafter).symm⟩
    cases i <;> first | rfl | cases hi
  | true =>
    cases i with
    | double d =>
      cases hd : d.isFinite with
      | true =>
        refine ⟨?_, eq_of_payload?_double hd hpayload hafter⟩
        rw [Double.isFinite_eq] at hd
        simpa [isNonFinite] using hd
      | false =>
        rw [payload, hd] at hpayload
        cases (payload?_null _).symm.trans hpayload
    | _ => cases hi

end Item

namespace Value

theorem opens_json (v : Value) : Opens (Element.json v) := ⟨rfl, by decide⟩

theorem reads_json {v : Value} (h : ∀ i ∈ v.items, i.isDouble = false) :
    Element.reader.Reads (Element.json v) v := by
  apply Reader.Reads.refine (a := v.items)
  · apply Reader.Reads.list
    · intro i _
      exact i.opens_json
    · intro i hi
      exact Item.reads_json (h i hi)
  · rfl

theorem needs_json (v : Value) :
    (Element.reader (α := Value)).Needs (Element.json v)
      (∀ i ∈ v.items, i.isNonFinite = false) := by
  apply Reader.Needs.refine
  apply Reader.Needs.list
  · intro i _
    exact i.opens_json
  · intro i _
    exact i.needs_json

end Value

end LeafFringe
