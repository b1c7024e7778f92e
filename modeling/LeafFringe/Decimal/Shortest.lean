/-!
# The fewest digits that identify a binary number

A binary floating-point number stands for all reals that round to it. Among the decimals in
that interval the shortest are sought, and of these the one nearest to the number. All
arithmetic is on naturals and exact.
-/

namespace LeafFringe

/-- The number `digits * 10 ^ exponent`. -/
structure Decimal where
  digits : Nat
  exponent : Int
deriving DecidableEq, Repr

namespace Decimal

/-- The same number without trailing zeros among its digits. -/
def strip (d : Decimal) : Decimal :=
  if h : d.digits ≠ 0 ∧ d.digits % 10 = 0 then
    strip ⟨d.digits / 10, d.exponent + 1⟩
  else d
termination_by d.digits
decreasing_by exact Nat.div_lt_self (Nat.pos_of_ne_zero h.1) (by decide)

/-- The positive number `mantissa * 2 ^ exponent`, as one of the values of a format. -/
structure Binary where
  mantissa : Nat
  exponent : Int
  /-- The value below is half as far away as the value above. -/
  narrowBelow : Bool
deriving DecidableEq, Repr

/-- Which of two equally near decimals is taken. -/
inductive Tie where
  | toEven
  | up
deriving DecidableEq, Repr

namespace Binary

/-- The units that `digits * 10 ^ grid` and the number have in common: the number is `mantissa`
times the first of them, a decimal is `digits` times the second. -/
def units (x : Binary) (grid : Int) : Nat × Nat :=
  (Nat.pow 2 x.exponent.toNat * Nat.pow 10 (-grid).toNat,
    Nat.pow 2 (-x.exponent).toNat * Nat.pow 10 grid.toNat)

/-- Whether `digits * 10 ^ grid` rounds to the number. The ends of the interval belong to it if
the mantissa is even. -/
def readsBack (x : Binary) (grid : Int) (digits : Nat) : Bool :=
  let (unit, step) := x.units grid
  let low := (4 * x.mantissa - if x.narrowBelow then 1 else 2) * unit
  let high := (4 * x.mantissa + 2) * unit
  let at4 := 4 * digits * step
  if x.mantissa % 2 = 0 then low ≤ at4 && at4 ≤ high else low < at4 && at4 < high

/-- The decimal on a grid that rounds to the number and is nearest to it. Only the two
neighbours of the number can be. -/
def onGrid? (x : Binary) (tie : Tie) (grid : Int) : Option Decimal :=
  let (unit, step) := x.units grid
  let below := x.mantissa * unit / step
  let above := below + 1
  match x.readsBack grid below, x.readsBack grid above with
  | false, false => none
  | true, false => some ⟨below, grid⟩
  | false, true => some ⟨above, grid⟩
  | true, true =>
    match compare (2 * x.mantissa * unit) ((below + above) * step), tie with
    | .lt, _ => some ⟨below, grid⟩
    | .gt, _ => some ⟨above, grid⟩
    | .eq, .up => some ⟨above, grid⟩
    | .eq, .toEven => some ⟨if below % 2 = 0 then below else above, grid⟩

/-- Every value of the format is above `10 ^ -deepest`. -/
def deepest : Nat := 324

/-- The exponent of the least power of ten above the number. -/
def scale (x : Binary) : Int :=
  let (unit, step) := x.units (-(deepest : Int))
  (Nat.toDigits 10 (x.mantissa * unit / step)).length - (deepest : Int)

/-- All digits of the number. -/
def exactly (x : Binary) : Decimal :=
  if x.exponent < 0 then ⟨x.mantissa * Nat.pow 5 (-x.exponent).toNat, x.exponent⟩
  else ⟨x.mantissa * Nat.pow 2 x.exponent.toNat, 0⟩

/-- Most decimal digits that a value of the format needs. -/
def mostDigits : Nat := 17

end Binary

/-- The shortest decimal that rounds to the number, and of these the nearest. -/
def Binary.shortest (x : Binary) (tie : Tie) : Decimal :=
  let found := (List.range mostDigits).findSome? fun (i : Nat) => x.onGrid? tie (x.scale - (i + 1))
  (found.getD x.exactly).strip

end Decimal

end LeafFringe
