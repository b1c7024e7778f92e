import LeafFringe.Json.Reader
import LeafFringe.Text.Layout

/-!
# What nodes may hold

The operations on nodes do not look at the elements. Only text does: a family of nodes has a
name, and its elements can be shown, stored and read back.
-/

namespace LeafFringe

/-- Types whose values can be held by nodes that are shown and stored. `==` is the equality by
which nodes are compared. -/
class Element (α : Type) extends BEq α where
  familyName : String
  /-- What a leaf with such elements is called. -/
  leafName : String
  debug : α → Text.Layout
  json : α → List Char
  reader : Json.Reader α

end LeafFringe
