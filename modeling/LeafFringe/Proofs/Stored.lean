import LeafFringe.Node.Store
import LeafFringe.Proofs.Element

/-!
# Stored nodes are read back

The text of a node does not tell its kind, but the number of its elements does: lists of nodes
are read back with the same boundaries and the same kinds. What cannot be read back is refused
as a whole.
-/

namespace LeafFringe

open Json

variable {α : Type}

theorem Leaf.ofList_toList (l : Leaf α) : Leaf.ofList l.toList = .ok l :=
  dif_pos ⟨l.minLeaf_le, l.le_maxLeaf⟩

theorem PartialLeaf.ofList_toList (p : PartialLeaf α) : PartialLeaf.ofList p.toList = .ok p :=
  dif_pos p.lt_minLeaf

/-- The kind of a node is recovered from the number of its elements. -/
theorem Node.ofList_toList (n : Node α) : Node.ofList n.toList = .ok n := by
  cases n with
  | leaf l =>
    rw [toList_leaf, ofList, if_neg (Nat.not_lt.mpr l.minLeaf_le), l.ofList_toList]
    rfl
  | part p =>
    rw [toList_part, ofList, if_pos p.lt_minLeaf, p.ofList_toList]
    rfl

/-- Texts of nodes whose elements all have the property are read back: those of lists as lists,
those of single nodes as what they are. -/
structure ReadBack (α : Type) [Element α] (plain : α → Prop) : Prop where
  nodes (nodes : List (Node α)) (h : ∀ n ∈ nodes, ∀ a ∈ n.toList, plain a) :
    nodesReader.parse (storeNodes nodes) = .ok nodes
  leaf (l : Leaf α) (h : ∀ a ∈ l.toList, plain a) : Leaf.reader.parse l.json = .ok l
  part (p : PartialLeaf α) (h : ∀ a ∈ p.toList, plain a) :
    PartialLeaf.reader.parse p.json = .ok p

/-- The text of a list of nodes is refused if any of its elements has the property. -/
def Refused (α : Type) [Element α] (broken : α → Prop) : Prop :=
  ∀ nodes : List (Node α), (∃ n ∈ nodes, ∃ a ∈ n.toList, broken a) →
    ∃ e, (nodesReader (α := α)).parse (storeNodes nodes) = .error e

section Element

variable [Element α]

theorem Node.opens_json (n : Node α) : Opens n.json := ⟨rfl, by decide⟩

theorem reads_counted {β : Type} (hopens : ∀ a : α, Opens (Element.json a)) {elems : List α}
    (h : ∀ a ∈ elems, Element.reader.Reads (Element.json a) a)
    {make : List α → Except ArityError β} {b : β} (hmake : make elems = .ok b) :
    (readCounted make).Reads (writeArray (elems.map Element.json)) b := by
  apply Reader.Reads.refine
  · apply Reader.Reads.list
    · intro a _
      exact hopens a
    · exact h
  · rw [hmake]
    rfl

theorem readBack {plain : α → Prop} (hopens : ∀ a : α, Opens (Element.json a))
    (hreads : ∀ a : α, plain a → Element.reader.Reads (Element.json a) a) : ReadBack α plain where
  nodes nodes h := by
    apply Reader.Reads.parse_eq
    apply Reader.Reads.list
    · intro n _
      exact n.opens_json
    · intro n hn
      apply reads_counted hopens _ n.ofList_toList
      intro a ha
      exact hreads a (h n hn a ha)
  leaf l h := by
    apply Reader.Reads.parse_eq
    apply reads_counted hopens _ l.ofList_toList
    intro a ha
    exact hreads a (h a ha)
  part p h := by
    apply Reader.Reads.parse_eq
    apply reads_counted hopens _ p.ofList_toList
    intro a ha
    exact hreads a (h a ha)

theorem refused {sound : α → Prop} (hopens : ∀ a : α, Opens (Element.json a))
    (hneeds : ∀ a : α, (Element.reader (α := α)).Needs (Element.json a) (sound a)) :
    Refused α fun a => ¬ sound a := by
  intro nodes hbroken
  have hall : (nodesReader (α := α)).Needs (storeNodes nodes)
      (∀ n ∈ nodes, ∀ a ∈ n.toList, sound a) := by
    apply Reader.Needs.list
    · intro n _
      exact n.opens_json
    · intro n _
      apply Reader.Needs.refine
      apply Reader.Needs.list
      · intro a _
        exact hopens a
      · intro a _
        exact hneeds a
  apply hall.exists_error
  intro hsound
  obtain ⟨n, hn, a, ha, hnot⟩ := hbroken
  exact hnot (hsound n hn a ha)

end Element

/-- Nodes of words are read back, and so are nodes of items and values if there is no double
among them. One number without a finite value makes a whole list unreadable. -/
theorem stored_nodes_read_back_or_refused :
    ReadBack UInt32 (fun _ => True) ∧
    ReadBack Item (fun i => i.isDouble = false) ∧
    ReadBack Value (fun v => ∀ i ∈ v.items, i.isDouble = false) ∧
    Refused Item (fun i => i.isNonFinite = true) ∧
    Refused Value (fun v => ∃ i ∈ v.items, i.isNonFinite = true) := by
  refine ⟨?_, ?_, ?_, ?_, ?_⟩
  · apply readBack Word.opens_json
    intro w _
    exact Word.reads_json w
  · apply readBack Item.opens_json
    intro i hi
    exact Item.reads_json hi
  · apply readBack Value.opens_json
    intro v hv
    exact Value.reads_json hv
  · simpa using refused Item.opens_json Item.needs_json
  · simpa using refused Value.opens_json Value.needs_json

/-- An empty partial leaf, a leaf and a partial leaf keep their kinds and their strings; one NaN
spoils the list. -/
theorem stored_nodes_keep_kinds :
    let strings : List Item := [.string "", .string "\"\\", .string "\n\x01", .string "é𝄞"]
    let others : List Item := [.boolean true, .boolean false, .integer 0, .integer (-7)]
    let mixed : List (Node Item) :=
      [.part ⟨[], by decide⟩, .leaf ⟨strings ++ others, by decide, by decide⟩,
        .part ⟨others, by decide⟩]
    let spoilt : Node Item := .part ⟨[.double Double.nan], by decide⟩
    (∀ n ∈ mixed, ∀ i ∈ n.toList, i.isDouble = false) ∧
      nodesReader.parse (storeNodes mixed) = .ok mixed ∧
      ∃ e, (nodesReader (α := Item)).parse (storeNodes (mixed ++ [spoilt])) = .error e := by
  intro strings others mixed spoilt
  have hplain : ∀ n ∈ mixed, ∀ i ∈ n.toList, i.isDouble = false := by decide
  refine ⟨hplain, stored_nodes_read_back_or_refused.2.1.nodes mixed hplain, ?_⟩
  apply stored_nodes_read_back_or_refused.2.2.2.1
  exact ⟨spoilt, by simp, .double Double.nan, by simp [spoilt], by decide⟩

end LeafFringe
