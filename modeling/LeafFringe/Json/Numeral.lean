/-!
# Numbers of JSON

A numeral is kept as it is written: a reader that wants an integer must know whether it had a
point or an exponent. A zero with a minus sign is no integer, since only a floating-point
number can hold it.
-/

namespace LeafFringe.Json

/-- A numeral, by its parts. -/
structure Numeral where
  negative : Bool
  whole : List Char
  /-- The digits behind the point, if there is one. -/
  fraction : Option (List Char)
  /-- The sign and the digits of the exponent, if there is one. -/
  exponent : Option (Bool × List Char)
deriving DecidableEq, Repr

namespace Numeral

/-- The digits that a text starts with, at least one, and what follows them. -/
def digits? (s : List Char) : Option (List Char × List Char) :=
  if s.takeWhile Char.isDigit = [] then none
  else some (s.takeWhile Char.isDigit, s.dropWhile Char.isDigit)

/-- Whether a text starts with a minus sign, and what follows that. -/
def minus : List Char → Bool × List Char
  | '-' :: rest => (true, rest)
  | rest => (false, rest)

/-- The sign of an exponent, which may be a plus, and what follows it. -/
def sign : List Char → Bool × List Char
  | '+' :: rest => (false, rest)
  | rest => minus rest

/-- The whole part: a zero alone, or digits that do not start with one. -/
def whole? (s : List Char) : Option (List Char × List Char) :=
  match digits? s with
  | some ('0' :: _ :: _, _) => none
  | found => found

def fraction? (s : List Char) : Option (Option (List Char) × List Char) :=
  match s with
  | '.' :: rest => (digits? rest).map fun found => (some found.1, found.2)
  | rest => some (none, rest)

def exponent? (s : List Char) : Option (Option (Bool × List Char) × List Char) :=
  match s with
  | 'e' :: rest | 'E' :: rest =>
    (digits? (sign rest).2).map fun found => (some ((sign rest).1, found.1), found.2)
  | rest => some (none, rest)

/-- The numeral that a text starts with, and what follows it. -/
def scan? (s : List Char) : Option (Numeral × List Char) := do
  let (whole, rest) ← whole? (minus s).2
  let (fraction, rest) ← fraction? rest
  let (exponent, rest) ← exponent? rest
  return ({ negative := (minus s).1, whole, fraction, exponent }, rest)

theorem length_of_digits? {s ds rest : List Char} (h : digits? s = some (ds, rest)) :
    rest.length < s.length := by
  unfold digits? at h
  split at h
  · cases h
  · rename_i hne
    obtain ⟨rfl, rfl⟩ := Prod.mk.inj (Option.some.inj h)
    have := List.length_pos_iff.2 hne
    have hs := congrArg List.length (@List.takeWhile_append_dropWhile _ Char.isDigit s)
    rw [List.length_append] at hs
    omega

theorem length_of_whole? {s ds rest : List Char} (h : whole? s = some (ds, rest)) :
    rest.length < s.length := by
  unfold whole? at h
  split at h
  · cases h
  · exact length_of_digits? h

theorem length_of_fraction? {s rest : List Char} {f : Option (List Char)}
    (h : fraction? s = some (f, rest)) : rest.length ≤ s.length := by
  unfold fraction? at h
  split at h
  · obtain ⟨⟨ds, r⟩, h₁, h₂⟩ := Option.map_eq_some_iff.1 h
    cases h₂
    have := length_of_digits? h₁
    simp only [List.length_cons]
    omega
  · cases h
    exact Nat.le_refl _

theorem length_minus (s : List Char) : (minus s).2.length ≤ s.length := by
  unfold minus
  split <;> simp

theorem length_sign (s : List Char) : (sign s).2.length ≤ s.length := by
  unfold sign
  split
  · simp
  · exact length_minus s

theorem length_of_exponent? {s rest : List Char} {e : Option (Bool × List Char)}
    (h : exponent? s = some (e, rest)) : rest.length ≤ s.length := by
  unfold exponent? at h
  split at h
  case h_3 =>
    cases h
    exact Nat.le_refl _
  all_goals
    rename_i r
    obtain ⟨⟨ds, r'⟩, h₁, h₂⟩ := Option.map_eq_some_iff.1 h
    cases h₂
    have := length_of_digits? h₁
    have := length_sign r
    simp only [List.length_cons]
    omega

theorem length_of_scan? {s rest : List Char} {n : Numeral} (h : scan? s = some (n, rest)) :
    rest.length < s.length := by
  simp only [scan?, bind, Option.bind_eq_some_iff] at h
  obtain ⟨⟨w, r₁⟩, h₁, ⟨f, r₂⟩, h₂, ⟨e, r₃⟩, h₃, h₄⟩ := h
  simp only at h₂ h₃ h₄
  obtain ⟨-, rfl⟩ := Prod.mk.inj (Option.some.inj h₄)
  have h₁ := length_of_whole? h₁
  have h₂ := length_of_fraction? h₂
  have h₃ := length_of_exponent? h₃
  have := length_minus s
  omega

/-- The natural number that digits stand for. -/
def value (ds : List Char) : Nat := Nat.ofDigitChars 10 ds 0

/-- The integer that a numeral is written as. -/
def integer? (n : Numeral) : Option Int :=
  match n.fraction, n.exponent with
  | none, none =>
    match n.negative, value n.whole with
    | false, v => some v
    | true, 0 => none
    | true, v => some (-v)
  | _, _ => none

/-- All digits of the numeral as one natural number. -/
def significand (n : Numeral) : Nat := value (n.whole ++ n.fraction.getD [])

/-- The power of ten that the significand is to be multiplied by. -/
def scale (n : Numeral) : Int :=
  let e : Int := match n.exponent with
    | none => 0
    | some (negative, ds) => if negative then -(value ds : Int) else value ds
  e - (n.fraction.getD []).length

end Numeral

/-- An integer in decimal. -/
def writeInt (i : Int) : List Char :=
  if i < 0 then '-' :: Nat.toDigits 10 i.natAbs else Nat.toDigits 10 i.natAbs

end LeafFringe.Json
