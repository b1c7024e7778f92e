import LeafFringe.Element.Item

/-!
# Composite values

A value is a sequence of items. It is shown in parentheses and stored as an array.
-/

namespace LeafFringe

open Json

/-- A sequence of items. -/
structure Value where
  items : List Item
deriving DecidableEq, Repr

namespace Value

instance : BEq Value where
  beq v w := v.items == w.items

def ofItem (i : Item) : Value := ⟨[i]⟩

def size (v : Value) : Nat := v.items.length

def isEmpty (v : Value) : Bool := v.items.isEmpty

/-- The text of a value. -/
def text (v : Value) : List Char :=
  '(' :: (List.intercalate [',', ' '] (v.items.map Item.text) ++ [')'])

def debug (v : Value) : Text.Layout := .wrapped "Value" (.list (v.items.map Item.debug))

def json (v : Value) : List Char := writeArray (v.items.map Item.json)

instance : Element Value where
  familyName := "Values"
  leafName := "ValueLeaf"
  debug := debug
  json := json
  reader := (Reader.list (Element.reader (α := Item))).refine fun items => .ok ⟨items⟩

end Value

end LeafFringe
