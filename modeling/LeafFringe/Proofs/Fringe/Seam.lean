import LeafFringe.Proofs.Fringe.Concat
import Mathlib.Data.List.Basic

/-!
# The seam of two fringes

Two fringes meet at one seam. What is made of the last node of the one and the first node of
the other ends in a leaf whenever more nodes follow, and these are leaves too: nothing that
happens at the seam reaches any further.
-/

namespace LeafFringe

variable {α : Type}

/-- A partial leaf and nothing else. -/
def SolePart (nodes : List (Node α)) : Prop := ∃ p, nodes = [.part p]

theorem IsFringe.allLeaves_of_not_solePart {nodes : List (Node α)} (h : IsFringe nodes)
    (hsole : ¬ SolePart nodes) : AllLeaves nodes := by
  cases h with
  | tiny p => exact absurd ⟨p, rfl⟩ hsole
  | leaves ha => exact ha

theorem SolePart.not_allLeaves {nodes : List (Node α)} (h : SolePart nodes) :
    ¬ AllLeaves nodes := by
  obtain ⟨p, rfl⟩ := h
  simp [Node.isPart]

/-- Behind the first node of a fringe there are leaves only, and none if that is no leaf. -/
theorem IsFringe.rest {first : Node α} {rest : List (Node α)} (h : IsFringe (first :: rest)) :
    AllLeaves rest ∧ (rest = [] ∨ first.isPart = false) := by
  cases h with
  | tiny p => exact ⟨allLeaves_nil, .inl rfl⟩
  | leaves ha =>
    obtain ⟨hfirst, hrest⟩ := (allLeaves_cons first rest).mp ha
    exact ⟨hrest, .inr hfirst⟩

/-- Nodes are appended one after the other, whatever list they come in. -/
theorem concat_append {κ : Type} [Carrier κ α] (left right more : List κ) :
    concat left (right ++ more) = concat left right >>= fun out => concat out more := by
  induction right generalizing left with
  | nil => simp
  | cons next right ih =>
    rw [List.cons_append, concat_cons, concat_cons, bind_assoc]
    congr 1
    funext out
    exact ih out

theorem join_of_leaves {last next : Node α} (hlast : last.isPart = false)
    (hnext : next.isPart = false) : join last next = pure [last, next] := by
  obtain ⟨l, rfl⟩ := Node.exists_leaf hlast
  obtain ⟨k, rfl⟩ := Node.exists_leaf hnext
  rfl

/-- A seam is reported iff the node behind it is a partial leaf. -/
theorem events_join (last next : Node α) :
    (join last next).events = last.absorption next := by
  rcases last.seam?_spec next with ⟨hnone, -, hnext⟩ | ⟨run, hsome, -, -⟩
  · simp [join, hnone, Node.absorption, hnext]
  · simp [join, hsome]

theorem events_append_snoc (settled : List (Node α)) (last next : Node α) :
    (append (settled ++ [last]) next).events = last.absorption next := by
  rw [append_snoc, Logged.events_map, events_join]

theorem append_of_leaves {out : List (Node α)} {next : Node α}
    (hlast : ∀ last ∈ out.getLast?, last.isPart = false) (hnext : next.isPart = false) :
    append out next = pure (out ++ [next]) := by
  rcases List.eq_nil_or_concat out with rfl | ⟨settled, last, rfl⟩
  · exact append_nil next
  · have hleaf := hlast last (by simp)
    rw [List.concat_eq_append, append_snoc, join_of_leaves hleaf hnext]
    simp

/-- Leaves behind a leaf are moved as they are. -/
theorem concat_of_leaves {left right : List (Node α)}
    (hlast : ∀ last ∈ left.getLast?, last.isPart = false) (hright : AllLeaves right) :
    concat left right = pure (left ++ right) := by
  induction right generalizing left with
  | nil => simp
  | cons next right ih =>
    obtain ⟨hnext, hrest⟩ := (allLeaves_cons next right).mp hright
    have hmoved : ∀ last ∈ (left ++ [next]).getLast?, last.isPart = false := by
      simpa using hnext
    rw [concat_cons, append_of_leaves hlast hnext, pure_bind, ih hmoved hrest,
      List.append_assoc, List.singleton_append]

theorem AllLeaves.of_getLast? {nodes : List (Node α)} (h : AllLeaves nodes) :
    ∀ last ∈ nodes.getLast?, last.isPart = false := by
  intro last hlast
  exact h last (List.mem_of_getLast? hlast)

theorem concat_nil_left {right : List (Node α)} (h : IsFringe right) :
    concat [] right = pure right := by
  cases h with
  | tiny p => simp
  | leaves ha =>
    have hlast : ∀ last ∈ ([] : List (Node α)).getLast?, last.isPart = false := by simp
    rw [concat_of_leaves hlast ha, List.nil_append]

/-- Of a fringe, only the first node has a part in what is appended to an output. -/
theorem concat_at_seam (settled : List (Node α)) (last : Node α) {first : Node α}
    {rest : List (Node α)} (h : IsFringe (first :: rest)) :
    concat (settled ++ [last]) (first :: rest) =
      (fun new => settled ++ new ++ rest) <$> join last first := by
  obtain ⟨hrest, hfirst⟩ := h.rest
  have hmoved : concat (settled ++ (join last first).value) rest =
      pure (settled ++ (join last first).value ++ rest) := by
    rcases hfirst with rfl | hfirst
    · simp
    · apply concat_of_leaves _ hrest
      -- the joined run is at least as long as the leaf in it
      have hsize := (first.isPart_eq_false_iff).mp hfirst
      have hj := joined_join last first
      have hleaves := hj.allLeaves (by omega)
      rw [List.getLast?_append_of_ne_nil _ hj.ne_nil]
      exact hleaves.of_getLast?
  rw [concat_cons, append_snoc]
  ext <;> simp [hmoved]

/-- Two fringes without elements to merge, or a seam between two nodes. -/
theorem concat_fringe_cases (left : List (Node α)) {right : List (Node α)}
    (hright : IsFringe right) :
    (left = [] ∧ concat left right = pure right) ∨
      (right = [] ∧ concat left right = pure left) ∨
      ∃ settled last first rest, left = settled ++ [last] ∧ right = first :: rest ∧
        concat left right = (fun new => settled ++ new ++ rest) <$> join last first := by
  rcases List.eq_nil_or_concat left with rfl | ⟨settled, last, rfl⟩
  · exact .inl ⟨rfl, concat_nil_left hright⟩
  · rw [List.concat_eq_append]
    cases right with
    | nil => exact .inr (.inl ⟨rfl, concat_nil _⟩)
    | cons first rest =>
      exact .inr (.inr ⟨settled, last, first, rest, rfl, rfl, concat_at_seam settled last hright⟩)

namespace Joined

variable {last next : Node α} {new : List (Node α)}

/-- There are two nodes iff nothing is merged or the joined run does not fit one leaf. -/
theorem length_eq (h : Joined last next new) (seam : last.isPart ∨ next.isPart) :
    new.length = if maxLeaf < last.size + next.size then 2 else 1 := by
  cases h with
  | apart hlast hnext => simp [hlast, hnext] at seam
  | merged n _ run =>
    have hsize := congrArg List.length run
    have hfits := n.size_le_maxLeaf
    rw [List.length_append, Node.length_toList, Node.length_toList, Node.length_toList] at hsize
    rw [if_neg (by omega)]
    rfl
  | halved a b _ long half run =>
    rw [if_pos long]
    rfl

/-- A joined run that is too long for one leaf is shared out evenly, and the second leaf has the
larger share. -/
theorem exists_halves (h : Joined last next new) (seam : last.isPart ∨ next.isPart)
    (long : maxLeaf < last.size + next.size) :
    ∃ a b : Leaf α, new = [.leaf a, .leaf b] ∧ a.size = (last.size + next.size) / 2 ∧
      b.size = (last.size + next.size + 1) / 2 := by
  have htotal := h.totalSize_eq
  cases h with
  | apart hlast hnext => simp [hlast, hnext] at seam
  | merged n _ run =>
    have hfits := n.size_le_maxLeaf
    rw [totalSize_cons, totalSize_nil] at htotal
    omega
  | halved a b _ _ half run =>
    rw [totalSize_cons, totalSize_cons, totalSize_nil, Node.size_leaf, Node.size_leaf] at htotal
    exact ⟨a, b, rfl, half, by omega⟩

theorem length_bounds (h : Joined last next new) : 1 ≤ new.length ∧ new.length ≤ 2 := by
  cases h <;> simp

end Joined

theorem absorption_eq_nil_iff (last next : Node α) :
    last.absorption next = [] ↔ next.isPart = false := by
  cases h : next.isPart <;> simp [Node.absorption, h]

/-- A seam node that is a partial leaf is alone in its fringe. -/
theorem IsFringe.solePart_cons_iff {first : Node α} {rest : List (Node α)}
    (h : IsFringe (first :: rest)) : SolePart (first :: rest) ↔ first.isPart := by
  cases h with
  | tiny p => simp [SolePart, Node.isPart]
  | leaves ha =>
    have hsole : ¬ SolePart (first :: rest) := fun hs => hs.not_allLeaves ha
    simp [hsole, ((allLeaves_cons first rest).mp ha).1]

theorem IsFringe.solePart_snoc_iff {settled : List (Node α)} {last : Node α}
    (h : IsFringe (settled ++ [last])) : SolePart (settled ++ [last]) ↔ last.isPart := by
  rcases eq_or_ne settled [] with rfl | hne
  · exact IsFringe.solePart_cons_iff h
  · obtain ⟨hsettled, hlast⟩ := (isFringe_append_iff hne (by simp)).mp h
    have hall := (allLeaves_append settled [last]).mpr ⟨hsettled, hlast⟩
    have hsole : ¬ SolePart (settled ++ [last]) := fun hs => hs.not_allLeaves hall
    simp [hsole, hlast last (by simp)]

/-- What a concatenation of two fringes does to them, and what it does not. -/
structure OnlySeam (left right : List (Node α)) (done : Logged (List (Node α))) : Prop where
  /-- All nodes of `left` but the last one stay where they are. -/
  front : left.dropLast <+: done.value
  /-- All nodes of `right` but the first one are moved as they are. -/
  back : right.tail <:+ done.value
  moved : ¬ SolePart left → ¬ SolePart right → done = pure (left ++ right)
  /-- The two nodes at the seam give way to the one or two that hold their joined run. -/
  replaced : (SolePart left ∧ right ≠ []) ∨ (SolePart right ∧ left ≠ []) →
    ∃ last ∈ left.getLast?, ∃ first ∈ right.head?, ∃ new,
      done.value = left.dropLast ++ new ++ right.tail ∧
        flatten new = last.toList ++ first.toList ∧
        new.length = if maxLeaf < last.size + first.size then 2 else 1
  length : done.value.length = left.length + right.length ∨
    done.value.length + 1 = left.length + right.length
  quiet : done.events.length ≤ 1
  reported : done.events ≠ [] ↔ SolePart right ∧ left ≠ []

theorem onlySeam_nil_left {right : List (Node α)} : OnlySeam [] right (pure right) where
  front := List.nil_prefix
  back := right.tail_suffix
  moved _ _ := rfl
  replaced h := by
    rcases h with ⟨⟨p, hp⟩, -⟩ | ⟨-, hne⟩
    · cases hp
    · exact absurd rfl hne
  length := .inl (Nat.zero_add _).symm
  quiet := Nat.zero_le 1
  reported := by simp

theorem onlySeam_nil_right {left : List (Node α)} : OnlySeam left [] (pure left) where
  front := left.dropLast_prefix
  back := List.nil_suffix
  moved _ _ := by rw [List.append_nil]
  replaced h := by
    rcases h with ⟨-, hne⟩ | ⟨⟨p, hp⟩, -⟩
    · exact absurd rfl hne
    · cases hp
  length := .inl rfl
  quiet := Nat.zero_le 1
  reported := by simp [SolePart]

theorem onlySeam_join {settled rest : List (Node α)} {last first : Node α}
    (hleft : IsFringe (settled ++ [last])) (hright : IsFringe (first :: rest)) :
    OnlySeam (settled ++ [last]) (first :: rest)
      ((fun new => settled ++ new ++ rest) <$> join last first) := by
  have hj := joined_join last first
  have hsize := hj.length_bounds
  constructor
  case front => simp [List.append_assoc]
  case back => exact List.suffix_append _ rest
  case moved =>
    rw [hleft.solePart_snoc_iff, hright.solePart_cons_iff]
    intro hlast hfirst
    rw [join_of_leaves (by simpa using hlast) (by simpa using hfirst)]
    simp
  case replaced =>
    rw [hleft.solePart_snoc_iff, hright.solePart_cons_iff]
    intro hsole
    have seam : last.isPart ∨ first.isPart := hsole.imp And.left And.left
    exact ⟨last, by simp, first, rfl, _, by simp, hj.flatten_eq, hj.length_eq seam⟩
  case length =>
    simp only [Logged.value_map, List.length_append, List.length_cons, List.length_nil]
    omega
  case quiet =>
    rw [Logged.events_map, events_join, Node.absorption]
    split <;> simp
  case reported =>
    rw [Logged.events_map, events_join, Ne, absorption_eq_nil_iff, hright.solePart_cons_iff]
    simp

/-- A concatenation of fringes changes two nodes at most, and reports at most one event. -/
theorem concat_changes_only_the_seam {left right : List (Node α)} {l r : Nat}
    (hleft : check left = .ok l) (hright : check right = .ok r) :
    OnlySeam left right (concat left right) := by
  obtain ⟨hl, -⟩ := (check_eq_ok_iff left l).mp hleft
  obtain ⟨hr, -⟩ := (check_eq_ok_iff right r).mp hright
  rcases concat_fringe_cases left hr with ⟨rfl, h⟩ | ⟨rfl, h⟩ |
    ⟨settled, last, first, rest, rfl, rfl, h⟩
  · rw [h]
    exact onlySeam_nil_left
  · rw [h]
    exact onlySeam_nil_right
  · rw [h]
    exact onlySeam_join hl hr

/-- Seven elements behind a full leaf make two leaves of eleven, and in front of a leaf of eight
they fill it up. The leaves further away stay as they are. -/
theorem concat_changes_only_the_seam_of_seven :
    let full : Node Nat := .leaf ⟨List.range 15, by decide, by decide⟩
    let seven : Node Nat := .part ⟨List.range 7, by decide⟩
    let eight : Node Nat := .leaf ⟨List.range 8, by decide, by decide⟩
    check [full, full] = .ok 30 ∧ check [seven] = .ok 7 ∧ check [eight, eight] = .ok 16 ∧
      OnlySeam [full, full] [seven] (concat [full, full] [seven]) ∧
      OnlySeam [seven] [eight, eight] (concat [seven] [eight, eight]) ∧
      (concat [full, full] [seven]).value.map Node.size = [15, 11, 11] ∧
      (concat [seven] [eight, eight]).value.map Node.size = [15, 8] := by
  intro full seven eight
  have h : check [full, full] = .ok 30 ∧ check [seven] = .ok 7 ∧ check [eight, eight] = .ok 16 :=
    ⟨rfl, rfl, rfl⟩
  exact ⟨h.1, h.2.1, h.2.2, concat_changes_only_the_seam h.1 h.2.1,
    concat_changes_only_the_seam h.2.1 h.2.2, by decide, by decide⟩

end LeafFringe
