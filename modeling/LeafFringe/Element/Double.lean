import LeafFringe.Decimal.Notation

/-!
# Double precision numbers

Doubles are stored, compared and written, never computed with. They are kept as the bits of
their binary64 format. `==` is the equality of numbers, by which no NaN equals anything and
the two zeros are equal; `=` is that of bits.
-/

namespace LeafFringe

open Decimal

/-- The bits of a binary64 number: a sign, eleven bits of exponent, 52 bits of fraction. -/
structure Double where
  bits : UInt64
deriving DecidableEq, Repr

namespace Double

def sign (d : Double) : Bool := d.bits >>> 63 == 1

def exponentField (d : Double) : Nat := (d.bits >>> 52 &&& 0x7ff).toNat

def fractionField (d : Double) : Nat := (d.bits &&& 0xfffffffffffff).toNat

def isNaN (d : Double) : Bool := d.exponentField == 0x7ff && d.fractionField != 0

def isInfinite (d : Double) : Bool := d.exponentField == 0x7ff && d.fractionField == 0

def isFinite (d : Double) : Bool := d.exponentField != 0x7ff

def isZero (d : Double) : Bool := d.exponentField == 0 && d.fractionField == 0

/-- The quiet NaN without a sign. -/
def nan : Double := ⟨0x7ff8000000000000⟩

instance : BEq Double where
  beq a b := !a.isNaN && !b.isNaN && (a.bits == b.bits || (a.isZero && b.isZero))

/-- The magnitude of a finite number. -/
def magnitude (d : Double) : Binary :=
  if d.exponentField = 0 then ⟨d.fractionField, -1074, false⟩
  else
    ⟨0x10000000000000 + d.fractionField, (d.exponentField : Int) - 1075,
      d.fractionField == 0 && 1 < d.exponentField⟩

/-- The magnitude of a finite number in decimal. -/
def decimal (d : Double) (tie : Tie) : Decimal :=
  if d.isZero then ⟨0, 0⟩ else d.magnitude.shortest tie

/-- The text of a finite number. -/
def writeFinite (f : Notation) (d : Double) : List Char :=
  let text := f.write (d.decimal f.tie)
  if d.sign then '-' :: text else text

/-- The text of any number. -/
def write (f : Notation) (d : Double) : List Char :=
  if d.isNaN then ['N', 'a', 'N']
  else if d.isInfinite then
    if d.sign then ['-', 'i', 'n', 'f'] else ['i', 'n', 'f']
  else d.writeFinite f

/-- Numbers shown to people have no exponent, and whole ones no point. -/
def shown : Notation where
  positional := none
  pointZero := false
  plusSign := false
  tie := .up

/-- Numbers in debug output are told from integers by a point or an exponent. -/
def debugged : Notation where
  positional := some (-4, 16)
  pointZero := true
  plusSign := false
  tie := .up

/-- Numbers in stored text. -/
def stored : Notation where
  positional := some (-5, 16)
  pointZero := true
  plusSign := true
  tie := .toEven

/-- The double nearest to `digits * 10 ^ exponent`, or nothing if that is beyond all finite
ones. -/
def ofDecimal? (negative : Bool) (digits : Nat) (exponent : Int) : Option Double :=
  let bits := (Float.ofScientific digits (exponent < 0) exponent.natAbs).toBits
  let d : Double := ⟨bits⟩
  if d.isFinite then some (if negative then ⟨bits ||| 0x8000000000000000⟩ else d) else none

end Double

end LeafFringe
