import LeafFringe.Json.Quoted

/-!
# Strings are read back

Each character is written as a unit of its own, from which the reader gets that character and
no other, so that a string is read back by induction on its characters.
-/

namespace LeafFringe.Json

theorem hexDigit?_digitChar : ∀ d < 16, hexDigit? (Nat.digitChar d) = some d := by decide

theorem hex4?_low {n : Nat} (h : n < firstPlain) (rest : List Char) :
    hex4? ('0' :: '0' :: Nat.digitChar (n / 16) :: Nat.digitChar (n % 16) :: rest) =
      some (n, rest) := by
  have hzero : hexDigit? '0' = some 0 := hexDigit?_digitChar 0 (by decide)
  have hhigh : hexDigit? (Nat.digitChar (n / 16)) = some (n / 16) :=
    hexDigit?_digitChar _ (by unfold firstPlain at h; omega)
  have hlow : hexDigit? (Nat.digitChar (n % 16)) = some (n % 16) :=
    hexDigit?_digitChar _ (Nat.mod_lt n (by decide))
  simp [hex4?, hzero, hhigh, hlow, Nat.div_add_mod']

theorem unicode?_low {c : Char} (h : c.toNat < firstPlain) (rest : List Char) :
    unicode? ('0' :: '0' :: Nat.digitChar (c.toNat / 16) :: Nat.digitChar (c.toNat % 16) :: rest) =
      some (c, rest) := by
  have hunit : ¬ (0xdc00 ≤ c.toNat ∧ c.toNat ≤ 0xdfff) ∧
      ¬ (0xd800 ≤ c.toNat ∧ c.toNat ≤ 0xdbff) := by
    unfold firstPlain at h
    omega
  simp [unicode?, hex4?_low h, hunit, Char.ofNat_toNat]

/-- The escapes by a letter. -/
theorem escaped?_letter {c l : Char} (h : letter? c = some l) (rest : List Char) :
    escaped? (l :: rest) = some (c, rest) := by
  unfold letter? at h
  split at h <;> cases h <;> rfl

theorem readChars_escape {c : Char} {s rest : List Char} (h : escaped? s = some (c, rest)) :
    readChars ('\\' :: s) = (readChars rest).map fun found => (c :: found.1, found.2) := by
  rw [readChars]
  split
  · rename_i hnone
    rw [h] at hnone
    cases hnone
  · rename_i hsome
    rw [h] at hsome
    cases hsome
    rfl

theorem readChars_plain {c : Char} (hletter : letter? c = none) (hplain : firstPlain ≤ c.toNat)
    (rest : List Char) :
    readChars (c :: rest) = (readChars rest).map fun found => (c :: found.1, found.2) := by
  have hquote : c ≠ '"' := by
    rintro rfl
    simp [letter?] at hletter
  have hslash : c ≠ '\\' := by
    rintro rfl
    simp [letter?] at hletter
  rw [readChars.eq_4 c rest hquote hslash, if_pos hplain]

theorem readChars_writeChar (c : Char) (rest : List Char) :
    readChars (writeChar c ++ rest) =
      (readChars rest).map fun found => (c :: found.1, found.2) := by
  unfold writeChar
  split
  · rename_i l hletter
    exact readChars_escape (escaped?_letter hletter rest)
  · rename_i hletter
    split
    · rename_i hplain
      exact readChars_plain hletter hplain rest
    · rename_i hlow
      exact readChars_escape (unicode?_low (Nat.not_le.mp hlow) rest)

theorem readChars_written (s rest : List Char) :
    readChars (s.flatMap writeChar ++ '"' :: rest) = some (s, rest) := by
  induction s with
  | nil => simp [readChars]
  | cons c s ih =>
    rw [List.flatMap_cons, List.append_assoc, readChars_writeChar, ih]
    rfl

end LeafFringe.Json
