import LeafFringe.Element.Double
import Mathlib.Algebra.Order.Field.Power
import Mathlib.Algebra.Order.Ring.Rat
import Mathlib.Tactic.NormNum

/-!
# The numbers that doubles stand for

Doubles are compared by their bits, with exceptions for NaN and for zero. This is the comparison
of the numbers that they stand for: every number but zero has one pattern of bits, because of two
magnitudes the one with the greater exponent is the greater one, whatever the fractions are.
-/

namespace LeafFringe.Double

/-- What a double stands for. -/
inductive Number where
  | finite (q : ℚ)
  | infinite (negative : Bool)

/-- The number that a finite double stands for. -/
def value (d : Double) : ℚ :=
  let size : ℚ := d.magnitude.mantissa * 2 ^ d.magnitude.exponent
  if d.sign then -size else size

/-- What a double stands for, if it is no NaN. -/
def number? (d : Double) : Option Number :=
  if d.isNaN then none
  else if d.isInfinite then some (.infinite d.sign)
  else some (.finite d.value)

section Fields

variable (d : Double)

theorem sign_eq : d.sign = decide (2 ^ 63 ≤ d.bits.toNat) := by
  have hlt := d.bits.toNat_lt
  have hsign : d.sign = decide (d.bits.toNat / 2 ^ 63 = 1) := by
    rw [Bool.eq_iff_iff]
    simp [sign, ← UInt64.toNat_inj, Nat.shiftRight_eq_div_pow]
  rw [hsign, decide_eq_decide]
  omega

theorem exponentField_eq : d.exponentField = d.bits.toNat / 2 ^ 52 % 2 ^ 11 := by
  have hmask := Nat.and_two_pow_sub_one_eq_mod (d.bits.toNat / 2 ^ 52) 11
  rw [← hmask]
  simp [exponentField, Nat.shiftRight_eq_div_pow]

theorem fractionField_eq : d.fractionField = d.bits.toNat % 2 ^ 52 := by
  have hmask := Nat.and_two_pow_sub_one_eq_mod d.bits.toNat 52
  rw [← hmask]
  simp [fractionField]

theorem fractionField_lt : d.fractionField < 2 ^ 52 := by
  rw [fractionField_eq]
  exact Nat.mod_lt _ (by decide)

end Fields

theorem bits_inj {d e : Double} : d.bits = e.bits ↔ d = e := by
  cases d
  cases e
  simp

/-- The three fields are all the bits. -/
theorem eq_of_fields {d e : Double} (hsign : d.sign = e.sign)
    (hexponent : d.exponentField = e.exponentField)
    (hfraction : d.fractionField = e.fractionField) : d = e := by
  rw [sign_eq, sign_eq, decide_eq_decide] at hsign
  rw [exponentField_eq, exponentField_eq] at hexponent
  rw [fractionField_eq, fractionField_eq] at hfraction
  have hd := d.bits.toNat_lt
  have he := e.bits.toNat_lt
  exact bits_inj.mp (UInt64.toNat_inj.mp (by omega))

/-- A magnitude, counted in the least positive double. -/
def units (exponent fraction : Nat) : Nat :=
  if exponent = 0 then fraction else (2 ^ 52 + fraction) * 2 ^ (exponent - 1)

section Units

variable {exponent fraction other rest : Nat}

theorem units_lt (h : fraction < 2 ^ 52) : units exponent fraction < 2 ^ 52 * 2 ^ exponent := by
  unfold units
  cases exponent with
  | zero => simpa using h
  | succ k =>
    have hpow : 2 ^ (k + 1) = 2 * 2 ^ k := Nat.pow_succ'
    rw [if_neg (Nat.succ_ne_zero k), Nat.add_sub_cancel, hpow, ← Nat.mul_assoc]
    exact Nat.mul_lt_mul_of_pos_right (by omega) (Nat.two_pow_pos k)

theorem le_units (h : exponent < other) : 2 ^ 52 * 2 ^ exponent ≤ units other rest := by
  rw [units, if_neg (by omega)]
  exact Nat.mul_le_mul (by omega) (Nat.pow_le_pow_right (by decide) (by omega))

/-- Magnitudes with different exponents differ. -/
theorem units_lt_units (h : fraction < 2 ^ 52) (hlt : exponent < other) :
    units exponent fraction < units other rest :=
  Nat.lt_of_lt_of_le (units_lt h) (le_units hlt)

theorem units_inj (h : fraction < 2 ^ 52) (hrest : rest < 2 ^ 52)
    (heq : units exponent fraction = units other rest) : exponent = other ∧ fraction = rest := by
  have hexponent : exponent = other := by
    rcases Nat.lt_trichotomy exponent other with hlt | hsame | hgt
    · exact absurd heq (Nat.ne_of_lt (units_lt_units h hlt))
    · exact hsame
    · exact absurd heq (Nat.ne_of_gt (units_lt_units hrest hgt))
  subst hexponent
  refine ⟨rfl, ?_⟩
  unfold units at heq
  split at heq
  · exact heq
  · have hsum := Nat.eq_of_mul_eq_mul_right (Nat.two_pow_pos _) heq
    omega

theorem units_eq_zero_iff : units exponent fraction = 0 ↔ exponent = 0 ∧ fraction = 0 := by
  unfold units
  split
  · rename_i h
    simp [h]
  · rename_i h
    simp [h]

end Units

theorem size_eq (d : Double) :
    (d.magnitude.mantissa : ℚ) * 2 ^ d.magnitude.exponent =
      units d.exponentField d.fractionField * 2 ^ (-1074 : ℤ) := by
  unfold magnitude units
  split
  · rfl
  · rename_i h
    have hexponent : (d.exponentField : ℤ) - 1075 = ((d.exponentField - 1 : ℕ) : ℤ) + -1074 := by
      omega
    have hbit : (0x10000000000000 : ℕ) = 2 ^ 52 := by norm_num
    simp only [hexponent, hbit]
    rw [zpow_add₀ two_ne_zero, zpow_natCast, Nat.cast_mul, Nat.cast_pow, Nat.cast_ofNat, mul_assoc]

/-- The value of a double, counted in the least positive one. -/
def signedUnits (d : Double) : ℤ :=
  if d.sign then -units d.exponentField d.fractionField
  else units d.exponentField d.fractionField

theorem value_eq (d : Double) : d.value = d.signedUnits * 2 ^ (-1074 : ℤ) := by
  simp only [value, size_eq, signedUnits]
  split <;> simp

theorem isZero_iff (d : Double) :
    d.isZero = true ↔ units d.exponentField d.fractionField = 0 := by
  rw [units_eq_zero_iff]
  simp [isZero]

/-- Only zero is equal to its own negative. -/
theorem signedUnits_eq_iff (d e : Double) :
    d.signedUnits = e.signedUnits ↔
      (d.sign = e.sign ∧
        units d.exponentField d.fractionField = units e.exponentField e.fractionField) ∨
      (units d.exponentField d.fractionField = 0 ∧ units e.exponentField e.fractionField = 0) := by
  unfold signedUnits
  cases d.sign <;> cases e.sign <;> simp <;> omega

/-- One number has one pattern of bits, but for the sign of zero. -/
theorem value_eq_value_iff (d e : Double) :
    d.value = e.value ↔ d = e ∨ (d.isZero = true ∧ e.isZero = true) := by
  have hunit : (2 : ℚ) ^ (-1074 : ℤ) ≠ 0 := zpow_ne_zero _ two_ne_zero
  rw [value_eq, value_eq, mul_left_inj' hunit, Int.cast_inj, signedUnits_eq_iff, isZero_iff,
    isZero_iff]
  apply or_congr_left
  constructor
  · rintro ⟨hsign, hunits⟩
    obtain ⟨hexponent, hfraction⟩ := units_inj d.fractionField_lt e.fractionField_lt hunits
    exact eq_of_fields hsign hexponent hfraction
  · rintro rfl
    exact ⟨rfl, rfl⟩

theorem number?_eq_none_iff (d : Double) : d.number? = none ↔ d.isNaN = true := by
  unfold number?
  split
  · rename_i h
    simp [h]
  · rename_i h
    split <;> simp [h]

/-- There are two infinities, which differ in their signs. -/
theorem eq_of_isInfinite {d e : Double} (hd : d.isInfinite = true) (he : e.isInfinite = true)
    (hsign : d.sign = e.sign) : d = e := by
  simp only [isInfinite, Bool.and_eq_true, beq_iff_eq] at hd he
  exact eq_of_fields hsign (hd.1.trans he.1.symm) (hd.2.trans he.2.symm)

/-- The sign of a zero does not count. -/
theorem number?_of_isZero {d : Double} (h : d.isZero = true) :
    d.number? = some (.finite 0) := by
  have hvalue : d.value = 0 := by
    rw [value_eq, signedUnits, (isZero_iff d).mp h]
    simp
  simp only [isZero, Bool.and_eq_true, beq_iff_eq] at h
  simp [number?, isNaN, isInfinite, h.1, hvalue]

theorem isNaN_eq_false_of_number? {d : Double} {x : Number} (h : d.number? = some x) :
    d.isNaN = false := by
  rw [Bool.eq_false_iff, Ne, ← number?_eq_none_iff, h]
  exact Option.some_ne_none x

theorem value_of_number? {d : Double} {q : ℚ} (h : d.number? = some (.finite q)) :
    d.value = q := by
  unfold number? at h
  split at h
  · cases h
  · split at h
    · cases h
    · cases h
      rfl

theorem isInfinite_of_number? {d : Double} {negative : Bool}
    (h : d.number? = some (.infinite negative)) : d.isInfinite = true ∧ d.sign = negative := by
  unfold number? at h
  split at h
  · cases h
  · split at h
    · rename_i hinf
      cases h
      exact ⟨hinf, rfl⟩
    · cases h

theorem eq_or_zeros {d e : Double} {x : Number} (hd : d.number? = some x)
    (he : e.number? = some x) : d = e ∨ (d.isZero = true ∧ e.isZero = true) := by
  cases x with
  | finite q =>
    exact (value_eq_value_iff d e).mp ((value_of_number? hd).trans (value_of_number? he).symm)
  | infinite negative =>
    obtain ⟨hinf, hsign⟩ := isInfinite_of_number? hd
    obtain ⟨hinf', hsign'⟩ := isInfinite_of_number? he
    exact .inl (eq_of_isInfinite hinf hinf' (hsign.trans hsign'.symm))

theorem beq_eq (d e : Double) :
    (d == e) = true ↔
      d.isNaN = false ∧ e.isNaN = false ∧ (d = e ∨ (d.isZero = true ∧ e.isZero = true)) := by
  change (!d.isNaN && !e.isNaN && (d.bits == e.bits || (d.isZero && e.isZero))) = true ↔ _
  simp [bits_inj, and_assoc]

/-- Doubles are equal iff they stand for the same number. So a NaN is equal to nothing. -/
theorem beq_iff (d e : Double) :
    (d == e) = true ↔ ∃ x, d.number? = some x ∧ e.number? = some x := by
  rw [beq_eq]
  constructor
  · rintro ⟨hd, he, rfl | ⟨hzero, hzero'⟩⟩
    · obtain ⟨x, hx⟩ := Option.ne_none_iff_exists'.mp
        (mt d.number?_eq_none_iff.mp (Bool.eq_false_iff.mp hd))
      exact ⟨x, hx, hx⟩
    · exact ⟨.finite 0, number?_of_isZero hzero, number?_of_isZero hzero'⟩
  · rintro ⟨x, hd, he⟩
    exact ⟨isNaN_eq_false_of_number? hd, isNaN_eq_false_of_number? he, eq_or_zeros hd he⟩

end LeafFringe.Double
