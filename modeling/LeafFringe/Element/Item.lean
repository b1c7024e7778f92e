import LeafFringe.Element.Basic
import LeafFringe.Element.Double
import LeafFringe.Text.Quoted

/-!
# Items

An item is an atomic value. It is shown by its value alone, and stored as an object whose one
key names its variant. Numbers without a finite value are stored as `null`, which cannot be
read back.
-/

namespace LeafFringe

open Json

/-- An atomic value. -/
inductive Item where
  | boolean (b : Bool)
  | integer (i : Int64)
  | double (d : Double)
  | string (s : String)
deriving DecidableEq, Repr

namespace Item

/-- Items of different variants are never equal, and doubles are equal as numbers. -/
instance : BEq Item where
  beq
    | boolean a, boolean b => a == b
    | integer a, integer b => a == b
    | double a, double b => a == b
    | string a, string b => a == b
    | _, _ => false

def variant : Item → String
  | boolean _ => "Boolean"
  | integer _ => "Integer"
  | double _ => "Double"
  | string _ => "String"

def writeBool (b : Bool) : List Char :=
  if b then ['t', 'r', 'u', 'e'] else ['f', 'a', 'l', 's', 'e']

/-- The text of an item. -/
def text : Item → List Char
  | boolean b => writeBool b
  | integer i => writeInt i.toInt
  | double d => d.write Double.shown
  | string s => Text.quote s.toList

def debug (i : Item) : Text.Layout :=
  .wrapped i.variant <| .ofChars <| match i with
    | double d => d.write Double.debugged
    | i => i.text

def null : List Char := ['n', 'u', 'l', 'l']

/-- The value of an item as it is stored. -/
def payload : Item → List Char
  | boolean b => writeBool b
  | integer i => writeInt i.toInt
  | double d => if d.isFinite then d.writeFinite Double.stored else null
  | string s => writeString s.toList

def json (i : Item) : List Char :=
  '{' :: (writeString i.variant.toList ++ ':' :: (i.payload ++ ['}']))

/-- The integer that a numeral is written as, if it fits 64 bits. -/
def integerOf? (n : Numeral) : Option Int64 := do
  let i ← n.integer?
  if Int64.minValue.toInt ≤ i ∧ i ≤ Int64.maxValue.toInt then some (Int64.ofInt i) else none

/-- The double nearest to a numeral. -/
def doubleOf? (n : Numeral) : Option Double :=
  Double.ofDecimal? n.negative n.significand n.scale

/-- Reads the value of the named variant. -/
def payload? (variant : String) (s : List Char) : Option (Item × List Char) :=
  if variant = "Boolean" then (bool? s).map fun found => (boolean found.1, found.2)
  else if variant = "Integer" then numeral? (fun n => (integerOf? n).map integer) s
  else if variant = "Double" then numeral? (fun n => (doubleOf? n).map double) s
  else if variant = "String" then
    (string? s).map fun found => (string (String.ofList found.1), found.2)
  else none

theorem length_of_payload? {variant : String} {s rest : List Char} {i : Item}
    (h : payload? variant s = some (i, rest)) : rest.length < s.length := by
  unfold payload? at h
  split at h
  · obtain ⟨⟨b, r⟩, h₁, h₂⟩ := Option.map_eq_some_iff.1 h
    cases h₂
    exact length_of_bool? h₁
  · split at h
    · exact length_of_numeral? h
    · split at h
      · exact length_of_numeral? h
      · split at h
        · obtain ⟨⟨t, r⟩, h₁, h₂⟩ := Option.map_eq_some_iff.1 h
          cases h₂
          exact length_of_string? h₁
        · cases h

/-- What follows a mark that may have blanks before it. -/
def after? (mark : Char) (s : List Char) : Option (List Char) :=
  match skipBlanks s with
  | c :: rest => if c = mark then some rest else none
  | [] => none

theorem length_of_after? {mark : Char} {s rest : List Char} (h : after? mark s = some rest) :
    rest.length < s.length := by
  have hle := length_skipBlanks s
  unfold after? at h
  split at h
  · rename_i c r hr
    split at h
    · cases h
      rw [hr, List.length_cons] at hle
      omega
    · cases h
  · cases h

/-- Reads an object with one member. -/
def object? (s : List Char) : Option (Item × List Char) := do
  let rest ← after? '{' s
  let (key, rest) ← string? (skipBlanks rest)
  let rest ← after? ':' rest
  let (item, rest) ← payload? (String.ofList key) (skipBlanks rest)
  let rest ← after? '}' rest
  return (item, rest)

theorem length_of_object? {s rest : List Char} {i : Item} (h : object? s = some (i, rest)) :
    rest.length < s.length := by
  simp only [object?, bind, Option.bind_eq_some_iff] at h
  obtain ⟨r₁, h₁, ⟨key, r₂⟩, h₂, r₃, h₃, ⟨item, r₄⟩, h₄, r₅, h₅, h₆⟩ := h
  simp only at h₃ h₄ h₅ h₆
  obtain ⟨-, rfl⟩ := Prod.mk.inj (Option.some.inj h₆)
  have h₁ := length_of_after? h₁
  have h₂ := length_of_string? h₂
  have h₃ := length_of_after? h₃
  have h₄ := length_of_payload? h₄
  have h₅ := length_of_after? h₅
  have := length_skipBlanks r₁
  have := length_skipBlanks r₃
  omega

instance : Element Item where
  familyName := "Items"
  leafName := "ItemLeaf"
  debug := debug
  json := json
  reader := Reader.ofOption object? length_of_object?

end Item

end LeafFringe
