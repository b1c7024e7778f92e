import LeafFringe.Proofs.Fringe.Shape
import LeafFringe.Proofs.Mapping.Site

/-!
# Lists of nodes do not look at the elements

Where a seam is merged, how its run is packed and where a run of elements is cut depends on
sizes only. So `map` commutes with everything that makes nodes of nodes or of a run.
-/

namespace LeafFringe

variable {α β : Type} (f : α → β)

theorem Leaf.set_map (l : Leaf α) (pos : Nat) (val : α) :
    (l.map f).set pos (f val) = Leaf.map f <$> l.set pos val := by
  by_cases h : pos < l.size
  · simp [set, h, Leaf.ext_iff, List.map_set]
  · simp [set, h]

namespace Node

theorem reverse_map (n : Node α) : (n.map f).reverse = n.reverse.map f := by
  ext1
  simp [List.map_reverse]

theorem ofRun_map {run : List α} (h : (run.map f).length ≤ maxLeaf) :
    ofRun (run.map f) h = (ofRun run (by simpa using h)).map f := by
  ext1
  simp

theorem pack_map {run : List α} (h : (run.map f).length ≤ bufferCapacity) :
    pack (run.map f) h = (pack run (by simpa using h)).map (Node.map f) := by
  by_cases fits : run.length ≤ maxLeaf
  · simp [pack, fits, ofRun_map]
  · simp [pack, fits, Leaf.cut_map, Node.map]

theorem seam?_map (last next : Node α) :
    (last.map f).seam? (next.map f) =
      (last.seam? next).map fun run => ⟨run.val.map f, by simpa using run.property⟩ := by
  cases last <;> cases next <;> simp [Node.map, seam?]

theorem absorption_map (prev next : Node α) :
    (prev.map f).absorption (next.map f) = prev.absorption next := by
  simp [absorption]

end Node

theorem Leaf.slice_map (l : Leaf α) (offset size : Nat) :
    (l.map f).slice offset size = Node.map f <$> l.slice offset size := by
  by_cases h : offset + size ≤ l.size
  · simp [slice, h, ← List.map_drop, ← List.map_take, Node.ofRun_map]
  · simp [slice, h]

theorem join_map (last next : Node α) :
    join (last.map f) (next.map f) = List.map (Node.map f) <$> join last next := by
  simp only [join, Carrier.node_node, Node.seam?_map]
  cases last.seam? next with
  | none => simp
  | some run => simp [Logged.map_mk, Node.pack_map, Node.absorption_map]

theorem append_map (out : List (Node α)) (next : Node α) :
    append (out.map (Node.map f)) (next.map f) = List.map (Node.map f) <$> append out next := by
  rcases List.eq_nil_or_concat out with rfl | ⟨settled, last, rfl⟩
  · simp
  · simp [join_map]

theorem concat_map (left right : List (Node α)) :
    concat (left.map (Node.map f)) (right.map (Node.map f)) =
      List.map (Node.map f) <$> concat left right := by
  induction right generalizing left with
  | nil => simp
  | cons next right ih => simp [append_map, ih]

theorem chop_map (run : List α) : chop (run.map f) = (chop run).map (Node.map f) := by
  induction run using chop.induct with
  | case1 run h => simp [chop, h]
  | case2 run h ih =>
    have hmap : ¬ (run.map f).isEmpty = true := by simpa using h
    -- each side is opened once: `simp` would go on into the rest of the run
    rw [chop, if_neg hmap, chop.eq_def run, if_neg h]
    simp [← List.map_take, ← List.map_drop, Node.ofRun_map, ih]

theorem ofElems_map (run : List α) :
    (ofElems (run.map f) : Logged (List (Node β))) = List.map (Node.map f) <$> ofElems run := by
  simp only [ofElems, map_built, chop_map]
  exact concat_map f [] (chop run)

end LeafFringe
