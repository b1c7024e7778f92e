import LeafFringe.Fringe.Edit
import LeafFringe.Proofs.Fringe.Concat
import LeafFringe.Proofs.Fringe.Locate
import LeafFringe.Proofs.Refusal
import LeafFringe.Proofs.Site.Insertion
import LeafFringe.Proofs.Site.Removal
import LeafFringe.Proofs.Windows
import Mathlib.Data.List.Forall2

/-!
# Fringes behave as lists

Every edit turns a fringe into a fringe of the elements that the same edit leaves in a plain
list. So does every run of edits, at each of its steps.
-/

namespace LeafFringe

variable {α : Type}

theorem flatten_chop (run : List α) : flatten (chop run) = run := by
  induction run using chop.induct with
  | case1 run h =>
    rw [chop, if_pos h, List.isEmpty_iff.mp h]
    rfl
  | case2 run h ih =>
    rw [chop, if_neg h, flatten_cons, ih, Node.toList_ofRun, List.take_append_drop]

theorem flatten_ofElems (run : List α) : flatten (ofElems run).value = run := by
  simp [ofElems, flatten_concat, flatten_chop]

theorem isFringe_ofElems (run : List α) : IsFringe (ofElems run : Logged (List (Node α))).value :=
  isFringe_concat (.leaves allLeaves_nil) _

theorem IsFringe.leaves_of_not_tiny {nodes : List (Node α)} (h : IsFringe nodes)
    (htiny : Fringe.isTiny nodes = false) : AllLeaves nodes ∧ nodes ≠ [] := by
  cases h with
  | tiny p => simp [Fringe.isTiny] at htiny
  | leaves ha =>
    refine ⟨ha, ?_⟩
    rintro rfl
    simp [Fringe.isTiny] at htiny

/-- The call makes a fringe of the given elements. -/
def Shows (call : Outcome (Edited α)) (elems : List α) : Prop :=
  ∃ done, call = .ok done ∧ IsFringe done.value.nodes ∧ flatten done.value.nodes = elems

theorem shows_ofElems (elems : List α) :
    Shows (.ok ((fun nodes => { nodes }) <$> ofElems elems)) elems :=
  ⟨_, rfl, isFringe_ofElems elems, flatten_ofElems elems⟩

theorem shows_nodes {call : Outcome (List (Node α))} {done : Logged (List (Node α))}
    {elems : List α} (hcall : call = .ok done) (hfringe : IsFringe done.value)
    (hflat : flatten done.value = elems) : Shows (do return { nodes := ← call }) elems := by
  subst hcall
  exact ⟨(fun nodes => { nodes }) <$> done, by simp only [bind_pure_comp, Outcome.ok_map],
    hfringe, hflat⟩

namespace Focus.IsSite

variable {f : Focus α} {s : Site α}

/-- What an insertion makes of a leaf and its neighbours is put in their place. -/
theorem splice_insert (hs : f.IsSite s) (h : AllLeaves f.nodes) {pos : Nat} {val : α}
    {done : Logged (Insertion α)} (hdone : s.insert pos val = .ok done) :
    IsFringe (f.splice (done.value.rebuild (s.left.map Node.leaf) (s.right.map Node.leaf))) ∧
      flatten (f.splice (done.value.rebuild (s.left.map Node.leaf) (s.right.map Node.leaf))) =
        flatten f.before ++ s.node.toList.insertIdx pos val ++ flatten f.after := by
  obtain ⟨-, hsettles⟩ := Site.settles_of_insert hdone
  constructor
  · exact .leaves (f.allLeaves_splice h hsettles.allLeaves_rebuild)
  · exact hs.flatten_splice hsettles.flatten_rebuild

/-- What a removal makes of a leaf and its neighbours is put in their place. -/
theorem splice_remove (hs : f.IsSite s) (h : AllLeaves f.nodes) {pos : Nat}
    {done : Logged (Removal α)} (hdone : s.remove pos = .ok done) :
    IsFringe (f.splice (done.value.rebuild (s.left.map Node.leaf) (s.right.map Node.leaf))) ∧
      flatten (f.splice (done.value.rebuild (s.left.map Node.leaf) (s.right.map Node.leaf))) =
        flatten f.before ++ s.node.toList.eraseIdx pos ++ flatten f.after := by
  obtain ⟨-, hrecovers⟩ := Site.recovers_of_remove hdone
  constructor
  · rcases hrecovers.rebuild_shape with hleaves | ⟨noLeft, noRight, p, hp⟩
    · exact .leaves (f.allLeaves_splice h hleaves)
    · -- without siblings the leaf was the whole fringe
      rw [hs.splice_alone noLeft noRight, hp]
      exact .tiny p
  · exact hs.flatten_splice hrecovers.flatten_rebuild

end Focus.IsSite

namespace Fringe

variable {nodes : List (Node α)}

/-- Among leaves an insertion goes to a site, and only what is rebuilt there is new. -/
theorem exists_insert (h : AllLeaves nodes) (hne : nodes ≠ []) {pos : Nat}
    (hpos : pos ≤ totalSize nodes) (val : α) (bias : Bias) :
    ∃ (f : Focus α) (s : Site α) (done : Logged (Insertion α)), f.nodes = nodes ∧ f.IsSite s ∧
      (flatten f.before).length + f.offset = pos ∧ s.insert f.offset val = .ok done ∧
      insert nodes pos val bias = .ok ((fun how =>
        ⟨f.splice (how.rebuild (s.left.map Node.leaf) (s.right.map Node.leaf)),
          some (.inserted how)⟩) <$> done) := by
  obtain ⟨f, s, hf, hnodes, hoffset, hs, hwithin⟩ := exists_focus (.gap bias) h hne hpos
  obtain ⟨done, hdone, -⟩ := s.insert_of_le val hwithin
  refine ⟨f, s, done, hnodes, hs, hoffset, hdone, ?_⟩
  simp only [insert, hf, hs.site, Outcome.lift_ok, Outcome.ok_pure_bind, hdone, bind_pure_comp,
    Outcome.ok_map, hs.left, hs.right]

/-- Among leaves a removal goes to a site, and only what is rebuilt there is new. -/
theorem exists_remove (h : AllLeaves nodes) (hne : nodes ≠ []) {pos : Nat}
    (hpos : pos < totalSize nodes) :
    ∃ (f : Focus α) (s : Site α) (done : Logged (Removal α)), f.nodes = nodes ∧ f.IsSite s ∧
      (flatten f.before).length + f.offset = pos ∧ s.remove f.offset = .ok done ∧
      remove nodes pos = .ok ((fun how =>
        ⟨f.splice (how.rebuild (s.left.map Node.leaf) (s.right.map Node.leaf)),
          some (.removed how)⟩) <$> done) := by
  obtain ⟨f, s, hf, hnodes, hoffset, hs, hwithin⟩ := exists_focus .element h hne hpos
  obtain ⟨done, hdone, -⟩ := s.remove_of_lt hwithin
  refine ⟨f, s, done, hnodes, hs, hoffset, hdone, ?_⟩
  simp only [remove, hf, hs.site, Outcome.lift_ok, Outcome.ok_pure_bind, hdone, bind_pure_comp,
    Outcome.ok_map, hs.left, hs.right]

theorem shows_insert (h : AllLeaves nodes) (hne : nodes ≠ []) {pos : Nat}
    (hpos : pos ≤ totalSize nodes) (val : α) (bias : Bias) :
    Shows (insert nodes pos val bias) ((flatten nodes).insertIdx pos val) := by
  obtain ⟨f, s, done, rfl, hs, rfl, hdone, hinsert⟩ := exists_insert h hne hpos val bias
  obtain ⟨hwithin, -⟩ := Site.settles_of_insert hdone
  obtain ⟨hfringe, hflat⟩ := hs.splice_insert h hdone
  refine ⟨_, hinsert, hfringe, ?_⟩
  rw [Logged.value_map, hflat, hs.flatten_nodes, insertIdx_between _ _ val hwithin]

theorem shows_remove (h : AllLeaves nodes) (hne : nodes ≠ []) {pos : Nat}
    (hpos : pos < totalSize nodes) :
    Shows (remove nodes pos) ((flatten nodes).eraseIdx pos) := by
  obtain ⟨f, s, done, rfl, hs, rfl, hdone, hremove⟩ := exists_remove h hne hpos
  obtain ⟨hwithin, -⟩ := Site.recovers_of_remove hdone
  obtain ⟨hfringe, hflat⟩ := hs.splice_remove h hdone
  refine ⟨_, hremove, hfringe, ?_⟩
  rw [Logged.value_map, hflat, hs.flatten_nodes, eraseIdx_between _ _ hwithin]

theorem shows_set (h : AllLeaves nodes) (hne : nodes ≠ []) {pos : Nat}
    (hpos : pos < totalSize nodes) (val : α) :
    Shows (do return { nodes := ← set nodes pos val }) ((flatten nodes).set pos val) := by
  obtain ⟨f, s, hf, rfl, rfl, hs, hwithin⟩ := exists_focus .element h hne hpos
  obtain ⟨new, hset, hnew⟩ := s.node.set_of_lt val hwithin
  have hcall : set f.nodes ((flatten f.before).length + f.offset) val =
      .ok (f.before ++ .leaf new :: f.after) := by
    simp only [set, hf, hs.node, Node.asLeaf, hset, ok_bind]
    rfl
  refine shows_nodes (by rw [hcall, Outcome.lift_ok]) ?_ ?_
  · apply IsFringe.leaves
    simp only [Focus.nodes, allLeaves_append, allLeaves_cons] at h
    simpa [Node.isPart] using And.intro h.1 h.2.2
  · rw [hs.flatten_nodes, set_between _ _ val hwithin]
    simp [hnew]

/-- The slices of leaves are the elements in the range. -/
theorem exists_pieces (h : AllLeaves nodes) (start stop : Nat) :
    ∃ ps, pieces nodes start stop = .ok ps ∧
      flatten ps = ((flatten nodes).take stop).drop start := by
  induction nodes generalizing start stop with
  | nil => exact ⟨[], rfl, by simp⟩
  | cons n rest ih =>
    obtain ⟨hn, hrest⟩ := (allLeaves_cons n rest).mp h
    obtain ⟨l, rfl⟩ := Node.exists_leaf hn
    obtain ⟨ps, hps, hflat⟩ := ih hrest (start - l.size) (stop - l.size)
    rw [flatten_cons, Node.toList_leaf, drop_take_append, l.length_toList, ← hflat]
    by_cases hpiece : start < min stop l.size
    · have hrange : start + (min stop l.size - start) ≤ l.size := by omega
      obtain ⟨piece, hslice, hlist⟩ := l.slice_of_le hrange
      refine ⟨piece :: ps, by simp [pieces, hpiece, Node.asLeaf, hslice, hps], ?_⟩
      rw [flatten_cons, hlist, List.drop_take]
      congr 1
      rw [List.take_eq_take_iff, List.length_drop, l.length_toList]
      omega
    · refine ⟨ps, by simp [pieces, hpiece, hps], ?_⟩
      have hempty : (l.toList.take stop).drop start = [] := by
        rw [List.drop_eq_nil_iff, List.length_take, l.length_toList]
        omega
      rw [hempty, List.nil_append]

theorem shows_slice (h : AllLeaves nodes) (start size : Nat) :
    Shows (do
        return { nodes := ← slice nodes start (start + min size (totalSize nodes - start)) })
      (((flatten nodes).drop start).take size) := by
  obtain ⟨ps, hps, hflat⟩ := exists_pieces h start (start + min size (totalSize nodes - start))
  have hslice : slice nodes start (start + min size (totalSize nodes - start)) =
      .ok (concat [] ps) := by simp [slice, hps]
  refine shows_nodes hslice (isFringe_concat (.leaves allLeaves_nil) ps) ?_
  rw [flatten_concat, hflat, flatten_nil, List.nil_append, List.drop_take,
    Nat.add_sub_cancel_left, List.take_eq_take_iff, List.length_drop, length_flatten]
  omega

theorem isFringe_reverse (h : IsFringe nodes) : IsFringe (reverse nodes) := by
  cases h with
  | tiny p => exact .tiny p.reverse
  | leaves ha =>
    apply IsFringe.leaves
    intro n hn
    simp only [reverse, List.mem_map, List.mem_reverse] at hn
    obtain ⟨m, hm, rfl⟩ := hn
    rw [Node.isPart_reverse, ha m hm]

theorem flatten_reverse (nodes : List (Node α)) :
    flatten (reverse nodes) = (flatten nodes).reverse := by
  induction nodes with
  | nil => rfl
  | cons n nodes ih =>
    have hcons : reverse (n :: nodes) = reverse nodes ++ [n.reverse] := by simp [reverse]
    rw [hcons, flatten_append, ih]
    simp

end Fringe

/-- What is made afresh needs no leaves; for all other edits there are some. -/
theorem shows_unless_tiny {nodes : List (Node α)} (h : IsFringe nodes)
    {call : Outcome (Edited α)} {elems : List α}
    (hcall : AllLeaves nodes → nodes ≠ [] → Shows call elems) :
    Shows (if Fringe.isTiny nodes then .ok ((fun nodes => { nodes }) <$> ofElems elems) else call)
      elems := by
  split
  · exact shows_ofElems elems
  · rename_i htiny
    obtain ⟨hleaves, hne⟩ := h.leaves_of_not_tiny (Bool.eq_false_iff.mpr htiny)
    exact hcall hleaves hne

theorem AllLeaves.mod_lt {nodes : List (Node α)} (h : AllLeaves nodes) (hne : nodes ≠ [])
    (pos : Nat) : pos % totalSize nodes < totalSize nodes := by
  have := h.minLeaf_le_totalSize hne
  have := minLeaf_eq
  exact Nat.mod_lt pos (by omega)

namespace Edit

/-- One edit keeps a fringe in step with its list. -/
theorem shows_apply (e : Edit α) {nodes : List (Node α)} (h : IsFringe nodes) :
    Shows (e.apply nodes) (e.onList (flatten nodes)) := by
  cases e with
  | insert pos val bias =>
    apply shows_unless_tiny h
    intro hleaves hne
    have hpos := Nat.mod_lt pos (Nat.succ_pos (totalSize nodes))
    rw [onList, length_flatten]
    exact Fringe.shows_insert hleaves hne (Nat.lt_succ_iff.mp hpos) val bias
  | remove pos =>
    apply shows_unless_tiny h
    intro hleaves hne
    rw [onList, length_flatten]
    exact Fringe.shows_remove hleaves hne (hleaves.mod_lt hne pos)
  | set pos val =>
    apply shows_unless_tiny h
    intro hleaves hne
    rw [onList, length_flatten]
    exact Fringe.shows_set hleaves hne (hleaves.mod_lt hne pos) val
  | slice pos size =>
    apply shows_unless_tiny h
    intro hleaves hne
    rw [onList, length_flatten]
    exact Fringe.shows_slice hleaves (pos % totalSize nodes) size
  | reverse => exact ⟨_, rfl, Fringe.isFringe_reverse h, Fringe.flatten_reverse nodes⟩
  | append elems =>
    refine ⟨_, rfl, isFringe_concat h (ofElems elems).value, ?_⟩
    exact (flatten_concat nodes _).trans (by rw [flatten_ofElems, onList])
  | prepend elems =>
    refine ⟨_, rfl, isFringe_concat (isFringe_ofElems elems) nodes, ?_⟩
    exact (flatten_concat _ nodes).trans (by rw [flatten_ofElems, onList])

/-- The nodes that an edit leaves. -/
def step (nodes : List (Node α)) (e : Edit α) : Except Fault (List (Node α)) :=
  Edited.nodes <$> (e.apply nodes).logged.value

theorem exists_step (e : Edit α) {nodes : List (Node α)} (h : IsFringe nodes) :
    ∃ new, step nodes e = .ok new ∧ IsFringe new ∧ flatten new = e.onList (flatten nodes) := by
  obtain ⟨done, hdone, hfringe, hflat⟩ := e.shows_apply h
  exact ⟨done.value.nodes, by rw [step, hdone]; rfl, hfringe, hflat⟩

theorem exists_run (edits : List (Edit α)) {nodes : List (Node α)} (h : IsFringe nodes) :
    ∃ versions, edits.scanlM step nodes = .ok versions ∧
      List.Forall₂ (fun version l => IsFringe version ∧ flatten version = l) versions
        (edits.scanl (fun l e => e.onList l) (flatten nodes)) := by
  induction edits generalizing nodes with
  | nil => exact ⟨[nodes], List.scanlM_nil, .cons ⟨h, rfl⟩ .nil⟩
  | cons e edits ih =>
    obtain ⟨new, hnew, hfringe, hflat⟩ := e.exists_step h
    obtain ⟨versions, hversions, hall⟩ := ih hfringe
    refine ⟨nodes :: versions, ?_, ?_⟩
    · rw [List.scanlM_cons, hnew, ok_bind, hversions, ok_bind,
        pure_eq_ok]
    · rw [List.scanl_cons, ← hflat]
      exact .cons ⟨h, rfl⟩ hall

/-- From the first version on, every version of a run of edits is accepted and has the elements
of the list that the same edits make. -/
theorem run_refines_lists (elems : List α) (edits : List (Edit α)) :
    ∃ versions, edits.scanlM step (ofElems elems).value = .ok versions ∧
      List.Forall₂ (fun version l => check version = .ok l.length ∧ flatten version = l)
        versions (edits.scanl (fun l e => e.onList l) elems) := by
  obtain ⟨versions, hversions, hall⟩ := exists_run edits (isFringe_ofElems elems)
  rw [flatten_ofElems] at hall
  refine ⟨versions, hversions, hall.imp ?_⟩
  rintro version l ⟨hfringe, rfl⟩
  exact ⟨by rw [hfringe.check_eq, length_flatten], rfl⟩

end Edit

end LeafFringe
