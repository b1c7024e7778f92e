import LeafFringe.Element.Basic
import LeafFringe.Node

/-!
# Nodes as stored text

A node is stored as the array of its elements, and a list of nodes as the array of these. The
kind of a node is not stored: it is told by the number of elements, or by the type that is
read. The elements are read before they are counted.
-/

namespace LeafFringe

open Json

variable {α : Type} [Element α]

def Leaf.json (l : Leaf α) : List Char := writeArray (l.toList.map Element.json)

def PartialLeaf.json (p : PartialLeaf α) : List Char := writeArray (p.toList.map Element.json)

def Node.json (n : Node α) : List Char := writeArray (n.toList.map Element.json)

/-- The stored text of a list of nodes. -/
def storeNodes (nodes : List (Node α)) : List Char := writeArray (nodes.map Node.json)

/-- Makes a node of the elements that were read, if their number fits. -/
def readCounted {β : Type} (make : List α → Except ArityError β) : Reader β :=
  (Reader.list Element.reader).refine fun elems => (make elems).mapError ReadError.arity

def Leaf.reader : Reader (Leaf α) := readCounted Leaf.ofList

def PartialLeaf.reader : Reader (PartialLeaf α) := readCounted PartialLeaf.ofList

def Node.reader : Reader (Node α) := readCounted Node.ofList

/-- Reads a list of nodes. -/
def nodesReader : Reader (List (Node α)) := Reader.list Node.reader

end LeafFringe
