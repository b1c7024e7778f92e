import LeafFringe.Element.Value
import LeafFringe.Element.Word
import LeafFringe.Proofs.Equality.Number
import LeafFringe.Proofs.Sharing.Lookup
import Mathlib.Data.List.Forall2

/-!
# Equal nodes

Nodes are compared by their elements alone. The kind of a node adds nothing, since it follows from
the number of the elements, and neither does the run: a node that shares its run with another one
is compared to it element by element. So what holds of the equality of elements holds of that of
nodes. It is symmetric and transitive, and a node is equal to its clone iff each of its elements
is equal to itself.
-/

namespace LeafFringe

open List (Forall₂)

variable {α : Type}

section Runs

variable [BEq α]

theorem beq_iff_forall₂ (run other : List α) :
    (run == other) = true ↔ Forall₂ (fun x y => (x == y) = true) run other := by
  induction run generalizing other with
  | nil => cases other <;> simp
  | cons x run ih =>
    cases other with
    | nil => simp
    | cons y other => simp [ih]

theorem beq_self_iff (run : List α) : (run == run) = true ↔ ∀ x ∈ run, (x == x) = true := by
  rw [beq_iff_forall₂, List.forall₂_same]

theorem beq_of_length_ne {run other : List α} (h : run.length ≠ other.length) :
    (run == other) = false := by
  rw [Bool.eq_false_iff, Ne, beq_iff_forall₂]
  exact fun hall => h hall.length_eq

instance partialEquivBEqList [PartialEquivBEq α] : PartialEquivBEq (List α) where
  symm {run other} h := by
    rw [beq_iff_forall₂] at h ⊢
    exact (h.imp fun _ _ => BEq.symm).flip
  trans {run other last} h h' := by
    -- no two of the lists are known to be equal, so all three are taken apart together
    induction run generalizing other last with
    | nil =>
      cases other with
      | nil => exact h'
      | cons => simp at h
    | cons x run ih =>
      cases other with
      | nil => simp at h
      | cons y other =>
        cases last with
        | nil => simp at h'
        | cons z last =>
          rw [List.cons_beq_cons, Bool.and_eq_true] at h h' ⊢
          exact ⟨BEq.trans h.1 h'.1, ih h.2 h'.2⟩

end Runs

/-! ### Items and values -/

namespace Item

/-- The item is a double that is no number. -/
def isNaN : Item → Bool
  | double d => d.isNaN
  | _ => false

/-- Items of one variant with the same content: doubles stand for the same number. -/
inductive Same : Item → Item → Prop
  | boolean (b : Bool) : Same (boolean b) (boolean b)
  | integer (i : Int64) : Same (integer i) (integer i)
  | double {d e : Double} {x : Double.Number} (hd : d.number? = some x)
      (he : e.number? = some x) : Same (double d) (double e)
  | string (s : String) : Same (string s) (string s)

theorem Same.symm {i j : Item} (h : Same i j) : Same j i := by
  cases h with
  | boolean b => exact .boolean b
  | integer i => exact .integer i
  | double hd he => exact .double he hd
  | string s => exact .string s

theorem Same.trans {i j k : Item} (h : Same i j) (h' : Same j k) : Same i k := by
  cases h with
  | boolean | integer | string => exact h'
  | double hd he =>
    cases h' with
    | double he' hf =>
      cases he.symm.trans he'
      exact .double hd hf

theorem same_self_iff (i : Item) : Same i i ↔ i.isNaN = false := by
  cases i with
  | boolean b => exact iff_of_true (.boolean b) rfl
  | integer i => exact iff_of_true (.integer i) rfl
  | string s => exact iff_of_true (.string s) rfl
  | double d =>
    rw [isNaN, Bool.eq_false_iff, Ne, ← Double.number?_eq_none_iff, ← Ne,
      Option.ne_none_iff_exists']
    constructor
    · intro h
      cases h with
      | double hd => exact ⟨_, hd⟩
    · rintro ⟨x, hx⟩
      exact .double hx hx

theorem beq_iff_same (i j : Item) : (i == j) = true ↔ Same i j := by
  constructor
  · intro h
    cases i <;> cases j
    case boolean.boolean a b =>
      obtain rfl : a = b := beq_iff_eq.mp h
      exact .boolean a
    case integer.integer a b =>
      obtain rfl : a = b := beq_iff_eq.mp h
      exact .integer a
    case double.double d e =>
      obtain ⟨x, hd, he⟩ := (Double.beq_iff d e).mp h
      exact .double hd he
    case string.string a b =>
      obtain rfl : a = b := beq_iff_eq.mp h
      exact .string a
    all_goals exact absurd h Bool.false_ne_true
  · intro h
    cases h with
    | boolean b => exact beq_self_eq_true b
    | integer i => exact beq_self_eq_true i
    | double hd he => exact (Double.beq_iff _ _).mpr ⟨_, hd, he⟩
    | string s => exact beq_self_eq_true s

instance : PartialEquivBEq Item where
  symm {i j} h := by
    rw [beq_iff_same] at h ⊢
    exact h.symm
  trans {i j k} h h' := by
    rw [beq_iff_same] at h h' ⊢
    exact h.trans h'

end Item

namespace Value

theorem beq_eq (v w : Value) : (v == w) = (v.items == w.items) := rfl

theorem beq_iff_same (v w : Value) : (v == w) = true ↔ Forall₂ Item.Same v.items w.items := by
  rw [beq_eq, beq_iff_forall₂]
  simp only [Item.beq_iff_same]

theorem beq_self_iff (v : Value) : (v == v) = true ↔ ∀ i ∈ v.items, i.isNaN = false := by
  rw [beq_iff_same, List.forall₂_same]
  simp only [Item.same_self_iff]

instance : PartialEquivBEq Value where
  symm h := BEq.symm (α := List Item) h
  trans h h' := BEq.trans (α := List Item) h h'

end Value

/-! ### Nodes -/

section Nodes

variable [BEq α]

/-- The kind does not count: where it differs, the runs differ in length. -/
theorem Node.beq_eq (a b : Node α) : (a == b) = (a.toList == b.toList) := by
  cases a with
  | leaf l =>
    cases b with
    | leaf m => rfl
    | part p =>
      have hne := Nat.ne_of_gt (Nat.lt_of_lt_of_le p.lt_minLeaf l.minLeaf_le)
      exact (beq_of_length_ne hne).symm
  | part p =>
    cases b with
    | leaf l =>
      have hne := Nat.ne_of_lt (Nat.lt_of_lt_of_le p.lt_minLeaf l.minLeaf_le)
      exact (beq_of_length_ne hne).symm
    | part q => rfl

theorem Node.beq_iff_forall₂ (a b : Node α) :
    (a == b) = true ↔ Forall₂ (fun x y => (x == y) = true) a.toList b.toList := by
  rw [beq_eq, LeafFringe.beq_iff_forall₂]

instance [PartialEquivBEq α] : PartialEquivBEq (Node α) where
  symm {a b} h := by
    rw [Node.beq_eq] at h ⊢
    exact BEq.symm h
  trans {a b c} h h' := by
    rw [Node.beq_eq] at h h' ⊢
    exact BEq.trans h h'

namespace Pool

variable {pool : Pool α} {slot : Nat} {s : Slot α}

theorem run_clone (h : pool[slot]? = some s) :
    pool.run (.clone slot) = (.ok (pure { made := [s.held] }), pool.extend [s.held]) := by
  have hheld : pool.held slot = .ok s.held := held_eq_ok_iff.mpr (by simp [held?, h])
  simp only [run, answer, hheld]
  rfl

/-- A clone holds the run of the node that it was made of. -/
theorem getElem?_clone (h : pool[slot]? = some s) :
    (pool.run (.clone slot)).2[pool.length]? = some s := by
  rw [run_clone h]
  exact getElem?_extend_add 0

theorem answer_eq {a b : Nat} {t : Slot α} (ha : pool[a]? = some s) (hb : pool[b]? = some t) :
    pool.answer (.eq a b) = .ok (pure (found (.truth (s.node == t.node)))) := by
  have hs : pool.held a = .ok s.held := held_eq_ok_iff.mpr (by simp [held?, ha])
  have ht : pool.held b = .ok t.held := held_eq_ok_iff.mpr (by simp [held?, hb])
  simp only [answer, hs, ht]
  rfl

theorem answer_eq_clone (h : pool[slot]? = some s) :
    (pool.run (.clone slot)).2.answer (.eq slot pool.length) =
      .ok (pure (found (.truth (s.node == s.node)))) := by
  have hold : (pool.run (.clone slot)).2[slot]? = some s := by
    rw [run_clone h, getElem?_extend_of_lt (List.getElem?_eq_some_iff.mp h).1, h]
  exact answer_eq hold (getElem?_clone h)

end Pool

/-- The laws of the equality of nodes, where the elements with `unequal` are those that are not
equal to themselves. -/
structure NodeEquality (α : Type) [BEq α] (unequal : α → Prop) : Prop where
  symm (a b : Node α) : (a == b) = true → (b == a) = true
  trans (a b c : Node α) : (a == b) = true → (b == c) = true → (a == c) = true
  /-- A clone is held like the node that it was made of, and compared to it all the same. -/
  clone (pool : Pool α) (slot : Nat) (s : Slot α) : pool[slot]? = some s →
    (pool.run (.clone slot)).2[pool.length]? = some s ∧
    ∃ t, (pool.run (.clone slot)).2.answer (.eq slot pool.length) =
        .ok (pure (Pool.found (.truth t))) ∧
      (t = true ↔ ∀ x ∈ s.node.toList, ¬ unequal x)

theorem nodeEquality_of_elements [PartialEquivBEq α] {unequal : α → Prop}
    (h : ∀ x : α, (x == x) = true ↔ ¬ unequal x) : NodeEquality α unequal where
  symm _ _ := BEq.symm
  trans _ _ _ := BEq.trans
  clone pool slot s hs := by
    refine ⟨Pool.getElem?_clone hs, _, Pool.answer_eq_clone hs, ?_⟩
    rw [Node.beq_eq, beq_self_iff]
    simp only [h]

end Nodes

/-- Nodes are equal iff their elements are, one by one, whatever kinds of nodes they are. For words
that is an equivalence. For items and values it is symmetric and transitive, and a node differs
from its clone iff there is a NaN in it. -/
theorem nodes_are_equal_by_elements :
    (∀ (α : Type) [BEq α] (a b : Node α),
      (a == b) = true ↔ Forall₂ (fun x y => (x == y) = true) a.toList b.toList) ∧
    (∀ u v : UInt32, (u == v) = true ↔ u = v) ∧
    (∀ i j : Item, (i == j) = true ↔ Item.Same i j) ∧
    (∀ v w : Value, (v == w) = true ↔ Forall₂ Item.Same v.items w.items) ∧
    NodeEquality UInt32 (fun _ => False) ∧
    NodeEquality Item (fun i => i.isNaN = true) ∧
    NodeEquality Value (fun v => ∃ i ∈ v.items, i.isNaN = true) := by
  refine ⟨fun _ _ => Node.beq_iff_forall₂, fun _ _ => beq_iff_eq, Item.beq_iff_same,
    Value.beq_iff_same, ?_, ?_, ?_⟩
  · apply nodeEquality_of_elements
    simp
  · apply nodeEquality_of_elements
    intro i
    rw [Item.beq_iff_same, Item.same_self_iff, Bool.not_eq_true]
  · apply nodeEquality_of_elements
    intro v
    rw [Value.beq_self_iff]
    simp

/-- Eight zeros are equal to eight zeros with the other sign, and so a leaf is equal to a leaf of
other elements. A partial leaf with a NaN differs from its clone, which shares its run. -/
theorem nodes_are_equal_up_to_signed_zeros :
    let zero : Item := .double ⟨0⟩
    let negative : Item := .double ⟨0x8000000000000000⟩
    let nan : Value := ⟨[.integer 7, .double .nan]⟩
    let a : Node Item := .leaf ⟨List.replicate 8 zero, by decide, by decide⟩
    let b : Node Item := .leaf ⟨List.replicate 8 negative, by decide, by decide⟩
    let s : Slot Value := ⟨0, .part ⟨[nan], by decide⟩⟩
    let pool : Pool Value := [s]
    a ≠ b ∧ (a == b) = true ∧ (b == a) = true ∧ pool[0]? = some s ∧
      (pool.run (.clone 0)).2[1]? = some s ∧
      (pool.run (.clone 0)).2.answer (.eq 0 1) =
        .ok (pure (Pool.found (.truth false))) := by
  intro zero negative nan a b s pool
  obtain ⟨helems, -, hitems, -, -, hitem, hvalue⟩ := nodes_are_equal_by_elements
  have hsame : (zero == negative) = true := by
    rw [hitems]
    exact .double (Double.number?_of_isZero rfl) (Double.number?_of_isZero rfl)
  have hab : (a == b) = true := by
    rw [helems, List.forall₂_iff_get]
    refine ⟨rfl, ?_⟩
    intro i _ _
    simp only [a, b, Node.toList_leaf, List.get_eq_getElem, List.getElem_replicate]
    exact hsame
  have hheld : pool[0]? = some s := rfl
  obtain ⟨hclone, t, hanswer, ht⟩ := hvalue.clone pool 0 s hheld
  have hfalse : t = false := by
    rw [Bool.eq_false_iff, Ne, ht]
    intro h
    exact h nan (by simp [s, Node.toList]) ⟨.double .nan, by simp [nan], rfl⟩
  subst hfalse
  exact ⟨by decide, hab, hitem.symm a b hab, hheld, hclone, hanswer⟩

end LeafFringe
