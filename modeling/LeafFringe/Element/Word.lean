import LeafFringe.Element.Basic

/-!
# Words

Unsigned numbers of 32 bits, for leaves of plain integers.
-/

namespace LeafFringe.Word

open Json

/-- The word that a numeral is written as. -/
def ofNumeral? (n : Numeral) : Option UInt32 :=
  match n.integer? with
  | some (.ofNat v) => if v < UInt32.size then some (UInt32.ofNat v) else none
  | _ => none

instance : Element UInt32 where
  familyName := "Ints"
  leafName := "IntLeaf"
  debug w := .ofChars (Nat.toDigits 10 w.toNat)
  json w := Nat.toDigits 10 w.toNat
  reader := Reader.ofOption (numeral? ofNumeral?) length_of_numeral?

end LeafFringe.Word
