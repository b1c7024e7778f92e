import LeafFringe.Proofs.Mapping.Fringe
import LeafFringe.Proofs.Refusal
import LeafFringe.Proofs.Site.Insertion
import LeafFringe.Proofs.Site.Removal

/-!
# The operations are oblivious of the elements

An operation on mapped nodes runs as it does on the nodes themselves: it fails alike, takes the
same branches and leaves the same ledgers, but for the name of the nodes, also where it fails
after it has reported something. So two edits of leaves of the same sizes look alike, wherever
they happen: both are the edit of a site whose elements are all taken for one.
-/

namespace LeafFringe

variable {α β γ δ : Type}

/-- Two calls that fail alike, or succeed with results that belong together. -/
inductive Alike (Related : γ → δ → Prop) : Except Fault γ → Except Fault δ → Prop
  | fail (why : Fault) : Alike Related (.error why) (.error why)
  | succeed {x : γ} {y : δ} (related : Related x y) : Alike Related (.ok x) (.ok y)

/-- The result of an operation on nodes called `name`, and what the same operation does to
mapped nodes that are called `other`: no line tells the two apart by more than the name. -/
structure Mirrored (name other : String) (g : γ → δ) (x : Logged γ) (y : Logged δ) : Prop where
  value : y.value = g x.value
  trace : ∃ texts : List String,
    x.trace name = texts.map (name ++ ·) ∧ y.trace other = texts.map (other ++ ·)
  counters : y.counters = x.counters

/-- All operations commute with a function of the elements. -/
structure Commutes (name other : String) (f : α → β) : Prop where
  elements : ∀ n : Node α, (n.map f).toList = n.toList.map f
  kinds : ∀ n : Node α, (n.map f).isPart = n.isPart ∧ (n.map f).size = n.size
  insertions : ∀ how : Insertion α, (how.map f).label = how.label
  removals : ∀ how : Removal α, (how.map f).label = how.label
  ofElems : ∀ run : List α, Mirrored name other (List.map (Node.map f))
    (ofElems run) (ofElems (run.map f))
  /-- The call ends in the mapped result or in the same fault, with the same events before it. -/
  insert : ∀ (s : Site α) (pos : Nat) (val : α),
    Mirrored name other (Insertion.map f <$> ·) (s.insert pos val).logged
      ((s.map f).insert pos (f val)).logged
  remove : ∀ (s : Site α) (pos : Nat),
    Mirrored name other (Removal.map f <$> ·) (s.remove pos).logged ((s.map f).remove pos).logged
  rebuildInsertion : ∀ (how : Insertion α) (left right : Option (Node α)),
    (how.map f).rebuild (left.map (Node.map f)) (right.map (Node.map f)) =
      (how.rebuild left right).map (Node.map f)
  rebuildRemoval : ∀ (how : Removal α) (left right : Option (Node α)),
    (how.map f).rebuild (left.map (Node.map f)) (right.map (Node.map f)) =
      (how.rebuild left right).map (Node.map f)
  append : ∀ (out : List (Node α)) (next : Node α),
    Mirrored name other (List.map (Node.map f)) (append out next)
      (append (out.map (Node.map f)) (next.map f))
  concat : ∀ left right : List (Node α),
    Mirrored name other (List.map (Node.map f)) (concat left right)
      (concat (left.map (Node.map f)) (right.map (Node.map f)))
  slice : ∀ (l : Leaf α) (offset size : Nat),
    Alike (Node.map f · = ·) (l.slice offset size) ((l.map f).slice offset size)
  reverse : ∀ n : Node α, (n.map f).reverse = n.reverse.map f
  set : ∀ (l : Leaf α) (pos : Nat) (val : α),
    Alike (Leaf.map f · = ·) (l.set pos val) ((l.map f).set pos (f val))

theorem Event.message_eq (name : String) (e : Event) : e.message name = name ++ e.message "" := by
  cases e <;> simp [Event.message, String.append_assoc]

theorem Logged.trace_eq (name : String) (x : Logged γ) :
    x.trace name = (x.trace "").map (name ++ ·) := by
  simp [Logged.trace, Function.comp_def, ← Event.message_eq]

theorem mirrored_map (name other : String) (g : γ → δ) (x : Logged γ) :
    Mirrored name other g x (g <$> x) where
  value := Logged.value_map g x
  trace := ⟨x.trace "", x.trace_eq name, by rw [Logged.trace_map, x.trace_eq other]⟩
  counters := Logged.counters_map g x

theorem alike_map {Related : γ → δ → Prop} {g : γ → δ} (related : ∀ x, Related x (g x))
    (call : Except Fault γ) : Alike Related call (g <$> call) := by
  cases call with
  | error why => exact .fail why
  | ok x => exact .succeed (related x)

theorem commutes_map (name other : String) (f : α → β) : Commutes name other f where
  elements n := n.toList_map f
  kinds n := ⟨n.isPart_map f, n.size_map f⟩
  insertions how := how.label_map f
  removals how := how.label_map f
  ofElems run := by
    rw [ofElems_map]
    exact mirrored_map name other _ _
  insert s pos val := by
    rw [s.insert_map, Outcome.logged_map]
    exact mirrored_map name other _ _
  remove s pos := by
    rw [s.remove_map, Outcome.logged_map]
    exact mirrored_map name other _ _
  rebuildInsertion how left right := how.rebuild_map f left right
  rebuildRemoval how left right := how.rebuild_map f left right
  append out next := by
    rw [append_map]
    exact mirrored_map name other _ _
  concat left right := by
    rw [concat_map]
    exact mirrored_map name other _ _
  slice l offset size := by
    rw [l.slice_map]
    exact alike_map (fun _ => rfl) _
  reverse n := n.reverse_map f
  set l pos val := by
    rw [l.set_map]
    exact alike_map (fun _ => rfl) _

/-- What can be seen of an edit of a leaf without looking at an element. -/
structure Footprint where
  label : String
  /-- The sizes of the nodes that take the place of the leaf and its siblings. -/
  sizes : List Nat
  events : List Event
deriving DecidableEq, Repr

def Insertion.footprint (s : Site α) (done : Logged (Insertion α)) : Footprint where
  label := done.value.label
  sizes := (done.value.rebuild (s.left.map Node.leaf) (s.right.map Node.leaf)).map Node.size
  events := done.events

def Removal.footprint (s : Site α) (done : Logged (Removal α)) : Footprint where
  label := done.value.label
  sizes := (done.value.rebuild (s.left.map Node.leaf) (s.right.map Node.leaf)).map Node.size
  events := done.events

theorem map_leaf_map (f : α → β) (side : Option (Leaf α)) :
    (side.map (Leaf.map f)).map Node.leaf = (side.map Node.leaf).map (Node.map f) := by
  cases side <;> rfl

theorem Insertion.footprint_map (f : α → β) (s : Site α) (done : Logged (Insertion α)) :
    Insertion.footprint (s.map f) (Insertion.map f <$> done) = Insertion.footprint s done := by
  simp only [footprint, Logged.value_map, Logged.events_map, label_map, Site.left_map,
    Site.right_map, map_leaf_map, rebuild_map, List.map_map, Function.comp_def, Node.size_map]

theorem Removal.footprint_map (f : α → β) (s : Site α) (done : Logged (Removal α)) :
    Removal.footprint (s.map f) (Removal.map f <$> done) = Removal.footprint s done := by
  simp only [footprint, Logged.value_map, Logged.events_map, label_map, Site.left_map,
    Site.right_map, map_leaf_map, rebuild_map, List.map_map, Function.comp_def, Node.size_map]

namespace Site

/-- The sizes of the siblings that are named and of the leaf between them. -/
def sizes (s : Site α) : Option Nat × Nat × Option Nat :=
  (s.left.map Leaf.size, s.node.size, s.right.map Leaf.size)

/-- The site with all its elements taken for one. -/
def blank (s : Site α) : Site Unit := s.map fun _ => ()

/-- Runs of blanks differ in their length only. -/
theorem blanks_eq {run run' : List Unit} (h : run.length = run'.length) : run = run' :=
  List.ext_getElem h fun _ _ _ => rfl

theorem blank_leaf_eq {l : Leaf α} {k : Leaf β} (h : l.size = k.size) :
    l.map (fun _ => ()) = k.map fun _ => () :=
  Leaf.ext (blanks_eq (by simpa [Leaf.length_toList] using h))

theorem blank_side_eq {side : Option (Leaf α)} {side' : Option (Leaf β)}
    (h : side.map Leaf.size = side'.map Leaf.size) :
    side.map (Leaf.map fun _ => ()) = side'.map (Leaf.map fun _ => ()) := by
  cases side with
  | none =>
    cases side' with
    | none => rfl
    | some k => cases h
  | some l =>
    cases side' with
    | none => cases h
    | some k =>
      rw [Option.map_some, Option.map_some, blank_leaf_eq (Option.some.inj h)]

theorem blank_eq_of_sizes {s : Site α} {t : Site β} (h : s.sizes = t.sizes) :
    s.blank = t.blank := by
  simp only [sizes, Prod.mk.injEq] at h
  obtain ⟨hleft, hnode, hright⟩ := h
  ext1
  · exact blank_side_eq hleft
  · exact blank_leaf_eq hnode
  · exact blank_side_eq hright

/-- Seen without the elements, every insertion is one at the front of the blank site. -/
theorem insert_blank (s : Site α) {pos : Nat} (val : α) (h : pos ≤ s.node.size) :
    ∃ done ran, s.insert pos val = .ok done ∧ s.blank.insert 0 () = .ok ran ∧
      Insertion.footprint s.blank ran = Insertion.footprint s done := by
  obtain ⟨done, hdone, -⟩ := s.insert_of_le val h
  have hpos : pos ≤ s.blank.node.size := by simpa [blank] using h
  have hrun : s.blank.node.toList.insertIdx 0 () = s.blank.node.toList.insertIdx pos () :=
    blanks_eq (by
      rw [List.length_insertIdx_of_le_length hpos,
        List.length_insertIdx_of_le_length (Nat.zero_le _)])
  refine ⟨done, Insertion.map (fun _ => ()) <$> done, hdone, ?_, Insertion.footprint_map _ s done⟩
  calc
    s.blank.insert 0 () = s.blank.insert pos () := by
      simp only [insert, dif_pos hpos, Nat.zero_le, dite_true, hrun]
    _ = Insertion.map (fun _ => ()) <$> s.insert pos val := insert_map _ s pos val
    _ = .ok (Insertion.map (fun _ => ()) <$> done) := by rw [hdone, Outcome.ok_map]

/-- Seen without the elements, every removal is one at the front of the blank site. -/
theorem remove_blank (s : Site α) {pos : Nat} (h : pos < s.node.size) :
    ∃ done ran, s.remove pos = .ok done ∧ s.blank.remove 0 = .ok ran ∧
      Removal.footprint s.blank ran = Removal.footprint s done := by
  obtain ⟨done, hdone, -⟩ := s.remove_of_lt h
  have hpos : pos < s.blank.node.size := by simpa [blank] using h
  have hfront : 0 < s.blank.node.size := Nat.zero_lt_of_lt hpos
  have hrest : s.blank.node.toList.eraseIdx 0 = s.blank.node.toList.eraseIdx pos :=
    blanks_eq (by rw [List.length_eraseIdx_of_lt hpos, List.length_eraseIdx_of_lt hfront])
  refine ⟨done, Removal.map (fun _ => ()) <$> done, hdone, ?_, Removal.footprint_map _ s done⟩
  calc
    s.blank.remove 0 = s.blank.remove pos := by
      simp only [remove, dif_pos hpos, dif_pos hfront, hrest]
    _ = Removal.map (fun _ => ()) <$> s.remove pos := remove_map _ s pos
    _ = .ok (Removal.map (fun _ => ()) <$> done) := by rw [hdone, Outcome.ok_map]

section Footprints

variable {s : Site α} {t : Site β} (h : s.sizes = t.sizes)
include h

theorem footprint_insert {pos pos' : Nat} (val : α) (val' : β) (hpos : pos ≤ s.node.size)
    (hpos' : pos' ≤ t.node.size) :
    ∃ x y, s.insert pos val = .ok x ∧ t.insert pos' val' = .ok y ∧
      Insertion.footprint s x = Insertion.footprint t y := by
  obtain ⟨x, ran, hx, hran, hxran⟩ := s.insert_blank val hpos
  obtain ⟨y, ran', hy, hran', hyran⟩ := t.insert_blank val' hpos'
  obtain rfl : ran = ran' := Outcome.ok.inj (by rw [← hran, ← hran', blank_eq_of_sizes h])
  exact ⟨x, y, hx, hy, by rw [← hxran, ← hyran, blank_eq_of_sizes h]⟩

theorem footprint_remove {pos pos' : Nat} (hpos : pos < s.node.size)
    (hpos' : pos' < t.node.size) :
    ∃ x y, s.remove pos = .ok x ∧ t.remove pos' = .ok y ∧
      Removal.footprint s x = Removal.footprint t y := by
  obtain ⟨x, ran, hx, hran, hxran⟩ := s.remove_blank hpos
  obtain ⟨y, ran', hy, hran', hyran⟩ := t.remove_blank hpos'
  obtain rfl : ran = ran' := Outcome.ok.inj (by rw [← hran, ← hran', blank_eq_of_sizes h])
  exact ⟨x, y, hx, hy, by rw [← hxran, ← hyran, blank_eq_of_sizes h]⟩

/-- What a removal reports is told by the sizes, even where there is no element to remove. -/
theorem events_remove_eq (pos pos' : Nat) :
    (s.remove pos).logged.events = (t.remove pos').logged.events := by
  rw [events_remove, events_remove, ← forewarning_map (fun _ => ()) s,
    ← forewarning_map (fun _ => ()) t]
  exact congrArg forewarning (blank_eq_of_sizes h)

end Footprints

end Site

/-- No operation looks at an element: each commutes with every function of the elements, up to
the name of the nodes in the trace and whether or not it fails, and two edits of leaves of the
same sizes differ in nothing but the elements, at whatever positions and in whatever domains they
are made. A removal that is refused reports what one that is not would have reported. -/
theorem oblivious_of_elements (name other : String) (f : α → β) :
    Commutes name other f ∧
      ∀ (s : Site α) (t : Site β), s.sizes = t.sizes →
        (∀ (pos pos' : Nat) (val : α) (val' : β), pos ≤ s.node.size → pos' ≤ t.node.size →
          ∃ x y, s.insert pos val = .ok x ∧ t.insert pos' val' = .ok y ∧
            Insertion.footprint s x = Insertion.footprint t y) ∧
        (∀ pos pos' : Nat, pos < s.node.size → pos' < t.node.size →
          ∃ x y, s.remove pos = .ok x ∧ t.remove pos' = .ok y ∧
            Removal.footprint s x = Removal.footprint t y) ∧
        ∀ pos pos' : Nat, (s.remove pos).logged.events = (t.remove pos').logged.events := by
  refine ⟨commutes_map name other f, fun s t h => ⟨?_, ?_, Site.events_remove_eq h⟩⟩
  · intro pos pos' val val' hpos hpos'
    exact Site.footprint_insert h val val' hpos hpos'
  · intro pos pos' hpos hpos'
    exact Site.footprint_remove h hpos hpos'

/-- A full leaf of numbers and one of truth values, each beside a full leaf and a short one. An
insertion at the front of the one and at the end of the other hands over as many elements. -/
theorem oblivious_of_numbers_and_truth_values :
    let s : Site Nat := ⟨some ⟨List.range 15, by decide, by decide⟩,
      ⟨List.range 15, by decide, by decide⟩, some ⟨List.range 8, by decide, by decide⟩⟩
    let t : Site Bool := ⟨some ⟨List.replicate 15 true, by decide, by decide⟩,
      ⟨List.replicate 15 false, by decide, by decide⟩,
      some ⟨List.replicate 8 true, by decide, by decide⟩⟩
    (s.sizes = t.sizes ∧ 0 ≤ s.node.size ∧ 15 ≤ t.node.size ∧
      ∃ x y, s.insert 0 7 = .ok x ∧ t.insert 15 true = .ok y ∧
        Insertion.footprint s x = ⟨"ShiftedRight", [15, 12, 12], [.shiftedRight 4]⟩ ∧
        Insertion.footprint s x = Insertion.footprint t y) ∧
      (3 < s.node.size ∧ 14 < t.node.size ∧
        ∃ x y, s.remove 3 = .ok x ∧ t.remove 14 = .ok y ∧
          Removal.footprint s x = Removal.footprint t y) := by
  intro s t
  have hsizes : s.sizes = t.sizes := by decide
  obtain ⟨hinsert, hremove, -⟩ :=
    (oblivious_of_elements "ItemLeaf" "ValueLeaf" (fun n : Nat => n % 2 == 0)).2 s t hsizes
  constructor
  · have hfront : 0 ≤ s.node.size := by decide
    have hend : 15 ≤ t.node.size := by decide
    obtain ⟨x, y, hx, hy, hsame⟩ := hinsert 0 15 7 true hfront hend
    refine ⟨hsizes, hfront, hend, x, y, hx, hy, ?_, hsame⟩
    obtain rfl := Outcome.ok.inj hx
    rfl
  · have hthird : 3 < s.node.size := by decide
    have hlast : 14 < t.node.size := by decide
    exact ⟨hthird, hlast, hremove 3 14 hthird hlast⟩

end LeafFringe
