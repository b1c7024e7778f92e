import LeafFringe.Proofs.Editing

/-!
# Editing a leaf alone

A leaf can be edited with its neighbours as siblings, or alone, in which case it is appended to
the leaves before it again, and all leaves behind it to the output. The elements are shared out
differently: siblings lend, take over and merge, while an output merges a leaf that is left too
short and never looks at a leaf that has become two. Both ways lead to fringes of the same
sequence.
-/

namespace LeafFringe

variable {α : Type}

/-- The focus on a position of a leaf with other leaves before and behind it. -/
def Focus.between (before : List (Leaf α)) (x : Leaf α) (after : List (Leaf α)) (pos : Nat) :
    Focus α where
  before := before.map .leaf
  node := .leaf x
  after := after.map .leaf
  offset := pos

/-- The site of an edit of that leaf. -/
def Site.between (before : List (Leaf α)) (x : Leaf α) (after : List (Leaf α)) : Site α where
  left := before.getLast?
  node := x
  right := after.head?

/-- Appends what became of the node, and all nodes behind it, to the nodes before it. -/
def Focus.stitch (f : Focus α) (new : List (Node α)) : List (Node α) :=
  (concat f.before (new ++ f.after)).value

/-- Both lists of nodes are accepted and stand for the given elements. -/
def Agree (elems : List α) (first second : List (Node α)) : Prop :=
  (check first = .ok elems.length ∧ flatten first = elems) ∧
    check second = .ok elems.length ∧ flatten second = elems

theorem allLeaves_leaves (leaves : List (Leaf α)) : AllLeaves (leaves.map Node.leaf) := by
  simp [AllLeaves, Node.isPart]

theorem mapM_asLeaf (side : Option (Leaf α)) :
    (side.map Node.leaf).mapM Node.asLeaf = .ok side := by
  cases side <;> rfl

section Between

variable (before : List (Leaf α)) (x : Leaf α) (after : List (Leaf α)) (pos : Nat)

theorem allLeaves_between : AllLeaves (Focus.between before x after pos).nodes := by
  have h := allLeaves_leaves (before ++ x :: after)
  simpa [Focus.nodes, Focus.between] using h

theorem isSite_between :
    (Focus.between before x after pos).IsSite (Site.between before x after) := by
  have hleft : (Focus.between before x after pos).left? =
      (Site.between before x after).left.map Node.leaf := List.getLast?_map
  have hright : (Focus.between before x after pos).right? =
      (Site.between before x after).right.map Node.leaf := List.head?_map
  constructor
  case site =>
    rw [Focus.site, hleft, hright, mapM_asLeaf, mapM_asLeaf]
    rfl
  case node => rfl
  case left => exact hleft
  case right => exact hright

end Between

/-- Where an edit is carried out beside the neighbours, and where it is carried out alone. -/
theorem Focus.agree {f : Focus α} (hbefore : AllLeaves f.before) {run : List α}
    {beside alone : List (Node α)}
    (hbeside : IsFringe (f.splice beside) ∧
      flatten (f.splice beside) = flatten f.before ++ run ++ flatten f.after)
    (halone : flatten alone = run) :
    Agree (flatten f.before ++ run ++ flatten f.after) (f.splice beside) (f.stitch alone) := by
  obtain ⟨hspliced, hflat⟩ := hbeside
  have hstitched : IsFringe (f.stitch alone) := isFringe_concat (.leaves hbefore) _
  have hflat' : flatten (f.stitch alone) = flatten f.before ++ run ++ flatten f.after := by
    rw [stitch, flatten_concat, flatten_append, halone, List.append_assoc]
  refine ⟨⟨?_, hflat⟩, ?_, hflat'⟩
  · rw [hspliced.check_eq, ← length_flatten, hflat]
  · rw [hstitched.check_eq, ← length_flatten, hflat']

/-- With its neighbours or alone: an edit of a leaf among leaves comes to a fringe of the same
sequence. -/
theorem restitching_agrees (before : List (Leaf α)) (x : Leaf α) (after : List (Leaf α))
    (pos : Nat) :
    let f := Focus.between before x after pos
    let s := Site.between before x after
    (pos < x.size → ∃ beside alone, s.remove pos = .ok beside ∧
      Site.remove { node := x } pos = .ok alone ∧
      Agree (flatten f.before ++ x.toList.eraseIdx pos ++ flatten f.after)
        (f.splice (beside.value.rebuild f.left? f.right?))
        (f.stitch (alone.value.rebuild none none))) ∧
    (∀ val, pos ≤ x.size → ∃ beside alone, s.insert pos val = .ok beside ∧
      Site.insert { node := x } pos val = .ok alone ∧
      Agree (flatten f.before ++ x.toList.insertIdx pos val ++ flatten f.after)
        (f.splice (beside.value.rebuild f.left? f.right?))
        (f.stitch (alone.value.rebuild none none))) := by
  intro f s
  have hbefore : AllLeaves f.before := allLeaves_leaves before
  have hleaves : AllLeaves f.nodes := allLeaves_between before x after pos
  have hs : f.IsSite s := isSite_between before x after pos
  -- Beside its neighbours the edit is one of a fringe. Alone it needs no bounds of what it leaves,
  -- because a fringe is made of whatever is appended.
  rw [hs.left, hs.right]
  constructor
  · intro h
    obtain ⟨beside, hbeside, -⟩ := s.remove_of_lt h
    obtain ⟨alone, halone, hrecovers⟩ := Site.remove_of_lt { node := x } h
    refine ⟨beside, alone, hbeside, halone,
      Focus.agree hbefore (hs.splice_remove hleaves hbeside) ?_⟩
    simpa using hrecovers.flatten_rebuild
  · intro val h
    obtain ⟨beside, hbeside, -⟩ := s.insert_of_le val h
    obtain ⟨alone, halone, hsettles⟩ := Site.insert_of_le { node := x } val h
    refine ⟨beside, alone, hbeside, halone,
      Focus.agree hbefore (hs.splice_insert hleaves hbeside) ?_⟩
    simpa using hsettles.flatten_rebuild

/-- The sequence is the same, and the nodes are not: a neighbour of ten lends one element where
the output shares out all of them evenly, and a neighbour of eight takes over four where the
output takes none. -/
theorem restitching_agrees_with_other_nodes :
    let eight : Leaf Nat := ⟨List.range 8, by decide, by decide⟩
    let ten : Leaf Nat := ⟨List.range 10, by decide, by decide⟩
    let full : Leaf Nat := ⟨List.range 15, by decide, by decide⟩
    let f := Focus.between [ten] eight [] 3
    let g := Focus.between [eight] full [] 15
    3 < eight.size ∧ 15 ≤ full.size ∧
      (∃ beside alone, (Site.between [ten] eight []).remove 3 = .ok beside ∧
        Site.remove { node := eight } 3 = .ok alone ∧
        Agree (List.range 10 ++ [0, 1, 2, 4, 5, 6, 7])
          (f.splice (beside.value.rebuild f.left? f.right?))
          (f.stitch (alone.value.rebuild none none)) ∧
        (f.splice (beside.value.rebuild f.left? f.right?)).map Node.size = [9, 8] ∧
        (f.stitch (alone.value.rebuild none none)).map Node.size = [8, 9]) ∧
      ∃ beside alone, (Site.between [eight] full []).insert 15 99 = .ok beside ∧
        Site.insert { node := full } 15 99 = .ok alone ∧
        Agree (List.range 8 ++ List.range 15 ++ [99])
          (g.splice (beside.value.rebuild g.left? g.right?))
          (g.stitch (alone.value.rebuild none none)) ∧
        (g.splice (beside.value.rebuild g.left? g.right?)).map Node.size = [12, 12] ∧
        (g.stitch (alone.value.rebuild none none)).map Node.size = [8, 8, 8] := by
  intro eight ten full f g
  have h₁ : 3 < eight.size := by decide
  have h₂ : 15 ≤ full.size := by decide
  obtain ⟨beside, alone, hbeside, halone, hagree⟩ := (restitching_agrees [ten] eight [] 3).1 h₁
  obtain ⟨beside', alone', hbeside', halone', hagree'⟩ :=
    (restitching_agrees [eight] full [] 15).2 99 h₂
  refine ⟨h₁, h₂, ⟨beside, alone, hbeside, halone, hagree, ?_⟩,
    beside', alone', hbeside', halone', hagree', ?_⟩
  · cases hbeside
    cases halone
    decide
  · cases hbeside'
    cases halone'
    decide

end LeafFringe
