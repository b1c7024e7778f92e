import LeafFringe.Element.Double
import LeafFringe.Json.Numeral
import LeafFringe.Proofs.Json.Framing

/-!
# Numbers are read back

An integer is written without a leading zero, so that all of its digits are read. A scan takes
nothing but marks of numerals, and the text of a double consists of such marks alone: whatever
is read of it, nothing behind it is touched.
-/

namespace LeafFringe.Json.Numeral

theorem isDigit_of_mem {n : Nat} {c : Char} (h : c ∈ Nat.toDigits 10 n) : c.isDigit = true :=
  Nat.isDigit_of_mem_toDigits (by decide) (by decide) h

theorem toDigits_ten_of_le {n : Nat} (h : 10 ≤ n) :
    Nat.toDigits 10 n = Nat.toDigits 10 (n / 10) ++ [Nat.digitChar (n % 10)] :=
  Nat.toDigits_of_base_le (by decide) h

theorem head?_toDigits_ne_zero {n : Nat} (h : 0 < n) :
    (Nat.toDigits 10 n).head? ≠ some '0' := by
  induction n using Nat.strongRecOn with
  | ind n ih =>
    rcases Nat.lt_or_ge n 10 with hlt | hge
    · have hdigit : ∀ d < 10, 0 < d → Nat.digitChar d ≠ '0' := by decide
      rw [Nat.toDigits_of_lt_base hlt]
      simpa using hdigit n hlt h
    · have hrec := ih (n / 10) (by omega) (by omega)
      obtain ⟨c, ds, hds⟩ :=
        List.exists_cons_of_ne_nil (Nat.toDigits_ne_nil (n := n / 10) (b := 10))
      rw [toDigits_ten_of_le hge, hds]
      simpa [hds] using hrec

theorem digits?_append {ds rest : List Char} (hne : ds ≠ []) (hds : ∀ c ∈ ds, c.isDigit = true)
    (hrest : Ends rest) : digits? (ds ++ rest) = some (ds, rest) := by
  have htake : rest.takeWhile Char.isDigit = [] := by cases hrest <;> rfl
  have hdrop : rest.dropWhile Char.isDigit = rest := by cases hrest <;> rfl
  rw [digits?, List.takeWhile_append_of_pos hds, List.dropWhile_append_of_pos hds, htake, hdrop,
    List.append_nil, if_neg hne]

theorem whole?_toDigits (n : Nat) {rest : List Char} (h : Ends rest) :
    whole? (Nat.toDigits 10 n ++ rest) = some (Nat.toDigits 10 n, rest) := by
  rw [whole?, digits?_append Nat.toDigits_ne_nil (fun _ => isDigit_of_mem) h]
  split
  · rename_i d ds _ heq
    have hdigits := (Prod.mk.inj (Option.some.inj heq)).1
    rcases Nat.eq_zero_or_pos n with rfl | hpos
    · simp [Nat.toDigits_zero] at hdigits
    · have := head?_toDigits_ne_zero hpos
      simp [hdigits] at this
  · rfl

theorem minus_toDigits (n : Nat) (rest : List Char) :
    minus (Nat.toDigits 10 n ++ rest) = (false, Nat.toDigits 10 n ++ rest) := by
  obtain ⟨c, ds, hds⟩ := List.exists_cons_of_ne_nil (Nat.toDigits_ne_nil (n := n) (b := 10))
  have hc : c ≠ '-' := by
    rintro rfl
    have := isDigit_of_mem (n := n) (c := '-') (by simp [hds])
    simp at this
  rw [hds, List.cons_append, minus]
  intro t h
  exact hc (List.cons.inj h).1

/-- The numeral that has digits only. -/
theorem scan?_whole {s rest : List Char} {n : Nat} (h : Ends rest)
    (hs : (minus s).2 = Nat.toDigits 10 n ++ rest) :
    scan? s = some (⟨(minus s).1, Nat.toDigits 10 n, none, none⟩, rest) := by
  have hfraction : fraction? rest = some (none, rest) := by cases h <;> rfl
  have hexponent : exponent? rest = some (none, rest) := by cases h <;> rfl
  simp [scan?, hs, whole?_toDigits n h, hfraction, hexponent]

theorem value_toDigits (n : Nat) : value (Nat.toDigits 10 n) = n := Nat.ofDigitChars_ten_toDigits

theorem scan?_writeInt (i : Int) {rest : List Char} (h : Ends rest) :
    ∃ n, scan? (writeInt i ++ rest) = some (n, rest) ∧ n.integer? = some i := by
  by_cases hneg : i < 0
  · refine ⟨⟨true, Nat.toDigits 10 i.natAbs, none, none⟩, ?_, ?_⟩
    · rw [writeInt, if_pos hneg]
      exact scan?_whole h rfl
    · -- a zero with a minus sign is never written
      have hpos : i.natAbs ≠ 0 := by omega
      simp only [integer?, value_toDigits]
      congr 1
      omega
  · refine ⟨⟨false, Nat.toDigits 10 i.natAbs, none, none⟩, ?_, ?_⟩
    · rw [writeInt, if_neg hneg, scan?_whole h (by rw [minus_toDigits]), minus_toDigits]
    · simp only [integer?, value_toDigits]
      congr 1
      omega

theorem writeInt_injective : Function.Injective writeInt := by
  intro i j h
  obtain ⟨n, hscan, hi⟩ := scan?_writeInt i .nil
  obtain ⟨m, hscan', hj⟩ := scan?_writeInt j .nil
  rw [h, hscan'] at hscan
  obtain ⟨rfl, -⟩ := Prod.mk.inj (Option.some.inj hscan)
  exact Option.some.inj (hi.symm.trans hj)

/-- The characters that numerals are made of. -/
def IsMark (c : Char) : Prop :=
  c.isDigit = true ∨ c = '-' ∨ c = '+' ∨ c = '.' ∨ c = 'e' ∨ c = 'E'

theorem not_isMark_brace : ¬ IsMark '}' := by simp [IsMark]

theorem IsMark.opens {c : Char} (h : IsMark c) (text : List Char) : Opens (c :: text) := by
  have hother : ∀ d ∈ [' ', '\t', '\n', '\r', ']'], c ≠ d := by
    rintro d hd rfl
    revert h
    simp only [List.mem_cons, List.not_mem_nil, or_false] at hd
    rcases hd with rfl | rfl | rfl | rfl | rfl <;> simp [IsMark]
  simp only [List.mem_cons, List.not_mem_nil, or_false, forall_eq_or_imp, forall_eq] at hother
  simp [Opens, isBlank, hother]

/-- Texts of nothing but marks. -/
def Marks (text : List Char) : Prop := ∀ c ∈ text, IsMark c

@[simp] theorem marks_nil : Marks [] := by simp [Marks]

@[simp] theorem marks_cons (c : Char) (text : List Char) :
    Marks (c :: text) ↔ IsMark c ∧ Marks text := by
  simp [Marks]

@[simp] theorem marks_append (text more : List Char) :
    Marks (text ++ more) ↔ Marks text ∧ Marks more := by
  simp [Marks, or_imp, forall_and]

theorem Marks.mono {text more : List Char} (h : Marks text) (hsub : more ⊆ text) : Marks more := by
  intro c hc
  exact h c (hsub hc)

@[simp] theorem marks_toDigits (n : Nat) : Marks (Nat.toDigits 10 n) :=
  fun _ hc => .inl (isDigit_of_mem hc)

theorem Marks.opens {text : List Char} (h : Marks text) (hne : text ≠ []) : Opens text := by
  obtain ⟨c, text, rfl⟩ := List.exists_cons_of_ne_nil hne
  exact ((marks_cons c text).mp h).1.opens text

theorem marks_writeInt (i : Int) : Marks (writeInt i) := by
  unfold writeInt
  split <;> simp [IsMark]

theorem writeInt_ne_nil (i : Int) : writeInt i ≠ [] := by
  unfold writeInt
  split
  · simp
  · exact Nat.toDigits_ne_nil

/-- The texts differ by marks at the front of the first one. -/
def Advances (s rest : List Char) : Prop := ∃ taken, s = taken ++ rest ∧ Marks taken

namespace Advances

variable {s t u : List Char}

theorem refl (s : List Char) : Advances s s := ⟨[], rfl, marks_nil⟩

theorem cons {c : Char} (hc : IsMark c) (h : Advances s t) : Advances (c :: s) t := by
  obtain ⟨taken, rfl, htaken⟩ := h
  exact ⟨c :: taken, rfl, (marks_cons c taken).mpr ⟨hc, htaken⟩⟩

theorem trans (h : Advances s t) (h' : Advances t u) : Advances s u := by
  obtain ⟨taken, rfl, htaken⟩ := h
  obtain ⟨more, rfl, hmore⟩ := h'
  exact ⟨taken ++ more, (List.append_assoc _ _ _).symm,
    (marks_append taken more).mpr ⟨htaken, hmore⟩⟩

theorem of_digits? {ds : List Char} (h : digits? s = some (ds, t)) : Advances s t := by
  unfold digits? at h
  split at h
  · cases h
  · cases h
    refine ⟨s.takeWhile Char.isDigit, List.takeWhile_append_dropWhile.symm, ?_⟩
    intro c hc
    exact .inl (List.all_eq_true.mp List.all_takeWhile c hc)

theorem of_minus (s : List Char) : Advances s (minus s).2 := by
  unfold minus
  split
  · exact cons (.inr (.inl rfl)) (refl _)
  · exact refl _

theorem of_sign (s : List Char) : Advances s (sign s).2 := by
  unfold sign
  split
  · exact cons (.inr (.inr (.inl rfl))) (refl _)
  · exact of_minus s

theorem of_whole? {ds : List Char} (h : whole? s = some (ds, t)) : Advances s t := by
  unfold whole? at h
  split at h
  · cases h
  · exact of_digits? h

theorem of_fraction? {f : Option (List Char)} (h : fraction? s = some (f, t)) :
    Advances s t := by
  unfold fraction? at h
  split at h
  · obtain ⟨found, hfound, heq⟩ := Option.map_eq_some_iff.mp h
    cases heq
    exact cons (.inr (.inr (.inr (.inl rfl)))) (of_digits? hfound)
  · cases h
    exact refl s

theorem of_exponent? {e : Option (Bool × List Char)} (h : exponent? s = some (e, t)) :
    Advances s t := by
  unfold exponent? at h
  split at h
  case h_3 =>
    cases h
    exact refl s
  all_goals
    rename_i rest
    obtain ⟨found, hfound, heq⟩ := Option.map_eq_some_iff.mp h
    cases heq
    exact cons (by simp [IsMark]) ((of_sign rest).trans (of_digits? hfound))

theorem of_scan? {n : Numeral} (h : scan? s = some (n, t)) : Advances s t := by
  simp only [scan?, bind, Option.bind_eq_some_iff] at h
  obtain ⟨⟨whole, r₁⟩, hwhole, ⟨fraction, r₂⟩, hfraction, ⟨exponent, r₃⟩, hexponent, heq⟩ := h
  cases heq
  exact (of_minus s).trans <| (of_whole? hwhole).trans <|
    (of_fraction? hfraction).trans (of_exponent? hexponent)

theorem of_numeral? {α : Type} {f : Numeral → Option α} {a : α}
    (h : numeral? f s = some (a, t)) : Advances s t := by
  simp only [numeral?, bind, Option.bind_eq_some_iff] at h
  obtain ⟨⟨n, r⟩, hscan, b, -, heq⟩ := h
  cases heq
  exact of_scan? hscan

/-- No marks are taken from behind a character that is none. -/
theorem append_cons {text rest t : List Char} {c : Char} (hc : ¬ IsMark c) (htext : Marks text)
    (h : Advances (text ++ c :: rest) t) : ∃ left, t = left ++ c :: rest ∧ Marks left := by
  obtain ⟨taken, heq, htaken⟩ := h
  rcases List.append_eq_append_iff.mp heq with ⟨more, rfl, hrest⟩ | ⟨more, rfl, hrest⟩
  · cases more with
    | nil => exact ⟨[], by simpa using hrest.symm, marks_nil⟩
    | cons d more =>
      obtain ⟨rfl, -⟩ := List.cons.inj hrest
      exact absurd (htaken c (by simp)) hc
  · exact ⟨more, hrest, ((marks_append _ _).mp htext).2⟩

end Advances

section Double

open Decimal

variable {digits : List Char}

theorem Marks.withPoint (h : Marks digits) (f : Notation) (point : Int) :
    Marks (f.withPoint digits point) := by
  have hzeros (n : Nat) : Marks (List.replicate n '0') := by
    intro c hc
    rw [List.eq_of_mem_replicate hc]
    exact .inl rfl
  unfold Notation.withPoint
  split
  · simp [IsMark, h, hzeros]
  · split
    · have htake : Marks (digits.take point.toNat) := h.mono (List.take_subset _ _)
      have hdrop : Marks (digits.drop point.toNat) := h.mono (List.drop_subset _ _)
      simp [IsMark, htake, hdrop]
    · split <;> simp [IsMark, h, hzeros]

theorem Marks.withExponent (h : Marks digits) (f : Notation) (exponent : Int) :
    Marks (f.withExponent digits exponent) := by
  have hfirst : Marks (digits.take 1) := h.mono (List.take_subset _ _)
  have hrest : Marks digits.tail := h.mono (List.tail_sublist _).subset
  unfold Notation.withExponent
  dsimp only
  rw [marks_append, marks_append, marks_cons, marks_append]
  refine ⟨⟨hfirst, ?_⟩, by simp [IsMark], ?_, marks_toDigits _⟩
  · split <;> simp [IsMark, hrest]
  · split
    · simp [IsMark]
    · split <;> simp [IsMark]

theorem marks_writeFinite (f : Notation) (d : Double) : Marks (d.writeFinite f) := by
  have hwrite (x : Decimal) : Marks (f.write x) := by
    unfold Notation.write
    dsimp only
    split
    · exact (marks_toDigits _).withPoint f _
    · exact (marks_toDigits _).withExponent f _
  unfold Double.writeFinite
  dsimp only
  split
  · exact (marks_cons _ _).mpr ⟨.inr (.inl rfl), hwrite _⟩
  · exact hwrite _

theorem writeFinite_ne_nil (f : Notation) (d : Double) : d.writeFinite f ≠ [] := by
  have hpoint {digits : List Char} (hne : digits ≠ []) (point : Int) :
      f.withPoint digits point ≠ [] := by
    unfold Notation.withPoint
    split
    · simp
    · split <;> simp [hne]
  have hwrite (x : Decimal) : f.write x ≠ [] := by
    unfold Notation.write
    dsimp only
    split
    · exact hpoint Nat.toDigits_ne_nil _
    · simp [Notation.withExponent]
  unfold Double.writeFinite
  dsimp only
  split
  · exact List.cons_ne_nil _ _
  · exact hwrite _

end Double

end LeafFringe.Json.Numeral
