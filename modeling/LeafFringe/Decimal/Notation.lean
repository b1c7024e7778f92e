import LeafFringe.Decimal.Shortest

/-!
# How a decimal is written

The digits of a decimal are laid out with a point among them, or behind the first of them with
an exponent at the end. A `Notation` holds the decisions of one format.
-/

namespace LeafFringe.Decimal

/-- The decisions of a number format. -/
structure Notation where
  /-- The exponents of the leading digit that are written with a point: from the first on,
  below the second. All of them, if there are no bounds. -/
  positional : Option (Int × Int)
  /-- Whole numbers keep a point and a zero. -/
  pointZero : Bool
  /-- An exponent that is not negative has a sign. -/
  plusSign : Bool
  tie : Tie

namespace Notation

def isPositional (f : Notation) (exponent : Int) : Bool :=
  match f.positional with
  | none => true
  | some (least, bound) => least ≤ exponent && exponent < bound

/-- The digits with the point after the first `point` of them. -/
def withPoint (f : Notation) (digits : List Char) (point : Int) : List Char :=
  if point ≤ 0 then
    '0' :: '.' :: (List.replicate (-point).toNat '0' ++ digits)
  else if point < digits.length then
    digits.take point.toNat ++ '.' :: digits.drop point.toNat
  else
    digits ++ List.replicate (point.toNat - digits.length) '0' ++
      if f.pointZero then ['.', '0'] else []

/-- The digits with the point after the first of them, and an exponent. -/
def withExponent (f : Notation) (digits : List Char) (exponent : Int) : List Char :=
  let fraction := if digits.length ≤ 1 then [] else '.' :: digits.drop 1
  let sign := if exponent < 0 then ['-'] else if f.plusSign then ['+'] else []
  digits.take 1 ++ fraction ++ 'e' :: (sign ++ Nat.toDigits 10 exponent.natAbs)

/-- The text of a decimal that is not negative. -/
def write (f : Notation) (d : Decimal) : List Char :=
  let digits := Nat.toDigits 10 d.digits
  let point := digits.length + d.exponent
  if f.isPositional (point - 1) then f.withPoint digits point
  else f.withExponent digits (point - 1)

end Notation

end LeafFringe.Decimal
