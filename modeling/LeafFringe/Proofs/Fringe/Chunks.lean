import LeafFringe.Proofs.Editing
import LeafFringe.Proofs.Fringe.Seam

/-!
# The nodes of a run of elements

A run is chopped into full leaves and at most one shorter node. If that is a partial leaf behind
a full leaf, the two are merged and shared out again, and nothing else is moved: sizes, kinds and
the one event follow from the length of the run. No fringe of as many elements has fewer nodes.
-/

namespace LeafFringe

variable {α : Type}

/-- The sizes of the nodes that `whole` full leaves and `rest` more elements come to. -/
def chunkSizes (whole rest : Nat) : List Nat :=
  if rest = 0 then List.replicate whole maxLeaf
  else if minLeaf ≤ rest ∨ whole = 0 then List.replicate whole maxLeaf ++ [rest]
  else List.replicate (whole - 1) maxLeaf ++ [(maxLeaf + rest) / 2, (maxLeaf + rest + 1) / 2]

/-- What is reported on the way there. -/
def chunkEvents (whole rest : Nat) : List Event :=
  if 0 < whole ∧ 0 < rest ∧ rest < minLeaf then [.absorbed rest (maxLeaf + rest)] else []

/-- What a run is chopped into: full leaves, and a shorter node if elements remain. -/
structure Chopped (run : List α) (full : List (Node α)) (last : Option (Node α)) : Prop where
  nodes : chop run = full ++ last.toList
  sizes : ∀ n ∈ full, n.size = maxLeaf
  whole : full.length = run.length / maxLeaf
  rest : last.elim 0 Node.size = run.length % maxLeaf
  pos : ∀ n ∈ last, 0 < n.size

theorem chopped_of_lt {run : List α} (hlt : run.length < maxLeaf) (hne : run.isEmpty = false) :
    Chopped run [] (some (Node.ofRun run (Nat.le_of_lt hlt))) := by
  have hpos : 0 < run.length := by
    rw [List.length_pos_iff, Ne, ← List.isEmpty_iff, hne]
    exact Bool.false_ne_true
  have hsize : (Node.ofRun run (Nat.le_of_lt hlt)).size = run.length := by simp [Node.size]
  constructor
  case nodes => exact Buffer.chop_of_length_lt hlt hne
  case sizes => simp
  case whole => rw [Nat.div_eq_of_lt hlt, List.length_nil]
  case rest => rw [Nat.mod_eq_of_lt hlt, Option.elim_some, hsize]
  case pos => simpa [hsize] using hpos

theorem Chopped.cons {run : List α} {full : List (Node α)} {last : Option (Node α)}
    (hle : maxLeaf ≤ run.length) (hne : run.isEmpty = false)
    (h : Chopped (run.drop maxLeaf) full last) :
    Chopped run (Node.ofRun (run.take maxLeaf) (List.length_take_le _ _) :: full) last := by
  have hlen : (run.drop maxLeaf).length = run.length - maxLeaf := List.length_drop
  constructor
  case nodes => rw [chop, hne, if_neg Bool.false_ne_true, h.nodes, List.cons_append]
  case sizes =>
    rw [List.forall_mem_cons]
    exact ⟨by simp [Node.size, hle], h.sizes⟩
  case whole =>
    rw [List.length_cons, h.whole, hlen, Nat.div_eq_sub_div Buffer.maxLeaf_pos hle]
  case rest => rw [h.rest, hlen, ← Nat.mod_eq_sub_mod hle]
  case pos => exact h.pos

theorem exists_chopped (run : List α) : ∃ full last, Chopped run full last := by
  induction run using chop.induct with
  | case1 run h =>
    obtain rfl := List.isEmpty_iff.mp h
    exact ⟨[], none, by rw [chop]; rfl, by simp, by simp, by simp, by simp⟩
  | case2 run h ih =>
    have hne : run.isEmpty = false := Bool.eq_false_iff.mpr h
    -- A piece is shorter than a full leaf only if nothing comes behind it.
    rcases Nat.lt_or_ge run.length maxLeaf with hlt | hle
    · exact ⟨_, _, chopped_of_lt hlt hne⟩
    · obtain ⟨full, last, hchopped⟩ := ih
      exact ⟨_, _, hchopped.cons hle hne⟩

/-- What the pieces of a run become, by the number of full leaves and of the elements that
remain. -/
inductive Chunked : (whole rest : Nat) → Logged (List (Node α)) → Prop
  | even (full : List (Node α)) (hfull : ∀ n ∈ full, n.size = maxLeaf) :
      Chunked full.length 0 (pure full)
  | kept (full : List (Node α)) (hfull : ∀ n ∈ full, n.size = maxLeaf) (last : Node α)
      (pos : 0 < last.size) (enough : minLeaf ≤ last.size ∨ full.length = 0) :
      Chunked full.length last.size (pure (full ++ [last]))
  | shared (full : List (Node α)) (hfull : ∀ n ∈ full, n.size = maxLeaf) (rest : Nat)
      (pos : 0 < rest) (short : rest < minLeaf) (a b : Leaf α)
      (ha : a.size = (maxLeaf + rest) / 2) (hb : b.size = (maxLeaf + rest + 1) / 2) :
      Chunked (full.length + 1) rest
        ⟨full ++ [.leaf a, .leaf b], [.absorbed rest (maxLeaf + rest)]⟩

theorem concat_nil_full {full : List (Node α)} (hfull : ∀ n ∈ full, n.size = maxLeaf) :
    concat [] full = pure full := by
  apply concat_nil_left
  apply IsFringe.leaves
  intro n hn
  rw [n.isPart_eq_false_iff, hfull n hn]
  decide

/-- Behind full leaves a partial leaf is merged with the last of them. -/
theorem append_part_of_full (settled : List (Node α)) {m n : Node α} (hm : m.size = maxLeaf)
    (hn : n.isPart = true) (pos : 0 < n.size) :
    ∃ a b : Leaf α, append (settled ++ [m]) n =
        ⟨settled ++ [.leaf a, .leaf b], [.absorbed n.size (maxLeaf + n.size)]⟩ ∧
      a.size = (maxLeaf + n.size) / 2 ∧ b.size = (maxLeaf + n.size + 1) / 2 := by
  obtain ⟨a, b, hnew, ha, hb⟩ := (joined_join m n).exists_halves (.inr hn) (by omega)
  have hevents : (join m n).events = [.absorbed n.size (maxLeaf + n.size)] := by
    rw [events_join, Node.absorption, if_pos hn, hm]
  rw [hm] at ha hb
  refine ⟨a, b, ?_, ha, hb⟩
  rw [append_snoc]
  ext <;> simp [hnew, hevents]

/-- Behind full leaves a leaf is kept, and so is a partial leaf with nothing before it. -/
theorem append_kept {full : List (Node α)} (hfull : ∀ n ∈ full, n.size = maxLeaf) {n : Node α}
    (enough : n.isPart = false ∨ full = []) : append full n = pure (full ++ [n]) := by
  rcases enough with hn | rfl
  · apply append_of_leaves _ hn
    intro last hlast
    rw [last.isPart_eq_false_iff, hfull last (List.mem_of_getLast? hlast)]
    decide
  · exact append_nil n

/-- What a node with elements makes of the full leaves before it. -/
theorem chunked_append {full : List (Node α)} (hfull : ∀ n ∈ full, n.size = maxLeaf) {n : Node α}
    (pos : 0 < n.size) : Chunked full.length n.size (append full n) := by
  by_cases enough : n.isPart = false ∨ full = []
  · rw [append_kept hfull enough]
    refine .kept full hfull n pos ?_
    rwa [← n.isPart_eq_false_iff, List.length_eq_zero_iff]
  · rw [not_or, Bool.not_eq_false] at enough
    obtain ⟨hn, hne⟩ := enough
    obtain ⟨settled, m, rfl⟩ := (List.eq_nil_or_concat full).resolve_left hne
    rw [List.concat_eq_append] at hfull ⊢
    obtain ⟨hsettled, hm⟩ := List.forall_mem_append.mp hfull
    obtain ⟨a, b, happend, ha, hb⟩ := append_part_of_full settled (hm m (by simp)) hn pos
    rw [happend, List.length_append, List.length_singleton]
    exact .shared settled hsettled n.size pos (n.isPart_iff.mp hn) a b ha hb

theorem chunked_ofElems (run : List α) :
    Chunked (run.length / maxLeaf) (run.length % maxLeaf) (ofElems run) := by
  obtain ⟨full, last, h⟩ := exists_chopped run
  have hofElems : (ofElems run : Logged (List (Node α))) = concat full last.toList := by
    rw [ofElems, map_built, h.nodes, concat_append, concat_nil_full h.sizes, pure_bind]
  rw [← h.whole, ← h.rest, hofElems]
  cases last with
  | none =>
    rw [Option.toList_none, concat_nil]
    exact .even full h.sizes
  | some n =>
    rw [Option.toList_some, concat_cons, Option.elim_some]
    simpa using chunked_append h.sizes (h.pos n rfl)

namespace Chunked

variable {whole rest : Nat} {done : Logged (List (Node α))}

theorem map_size_full {full : List (Node α)} (hfull : ∀ n ∈ full, n.size = maxLeaf) :
    full.map Node.size = List.replicate full.length maxLeaf := by
  rw [List.eq_replicate_iff]
  simpa using hfull

theorem sizes_eq (h : Chunked whole rest done) :
    done.value.map Node.size = chunkSizes whole rest := by
  unfold chunkSizes
  cases h with
  | even full hfull => simp [map_size_full hfull]
  | kept full hfull last pos enough =>
    rw [if_neg (Nat.ne_of_gt pos), if_pos enough]
    simp [map_size_full hfull]
  | shared full hfull rest pos short a b ha hb =>
    rw [if_neg (Nat.ne_of_gt pos), if_neg (by omega)]
    simp [map_size_full hfull, ha, hb]

theorem events_eq (h : Chunked whole rest done) : done.events = chunkEvents whole rest := by
  unfold chunkEvents
  cases h with
  | even full hfull => simp
  | kept full hfull last pos enough =>
    rw [if_neg (by omega)]
    rfl
  | shared full hfull rest pos short a b ha hb => rw [if_pos (by omega)]

theorem length_eq (h : Chunked whole rest done) :
    done.value.length = whole + if rest = 0 then 0 else 1 := by
  cases h with
  | even full hfull => simp
  | kept full hfull last pos enough => simp [Nat.ne_of_gt pos]
  | shared full hfull rest pos short a b ha hb => simp [Nat.ne_of_gt pos]

end Chunked

theorem chunk_count_eq (count : Nat) :
    (count / maxLeaf + if count % maxLeaf = 0 then 0 else 1) =
      (count + maxLeaf - 1) / maxLeaf := by
  rw [maxLeaf_eq]
  split <;> omega

/-- What becomes of a run of elements. -/
structure Chunking (run : List α) (done : Logged (List (Node α))) : Prop where
  elements : flatten done.value = run
  accepted : check done.value = .ok run.length
  sizes : done.value.map Node.size =
    chunkSizes (run.length / maxLeaf) (run.length % maxLeaf)
  /-- Only where all elements together are too few for a leaf there is a partial leaf. -/
  kinds : ∀ n ∈ done.value, n.isPart = true ↔ run.length < minLeaf
  count : done.value.length = (run.length + maxLeaf - 1) / maxLeaf
  fewest : ∀ nodes : List (Node α), check nodes = .ok run.length →
    done.value.length ≤ nodes.length
  events : done.events = chunkEvents (run.length / maxLeaf) (run.length % maxLeaf)

/-- A run of any length is chunked into the fewest nodes that can hold it, of sizes that follow
from its length, and collecting the elements one by one in a buffer comes to the same. -/
theorem chunking_ofElems (run : List α) :
    Buffer.ofElems run = .ok (ofElems run) ∧ Chunking run (ofElems run) := by
  have hchunked := chunked_ofElems run
  have hfringe := isFringe_ofElems run
  have hflat := flatten_ofElems run
  have htotal : totalSize (ofElems run : Logged (List (Node α))).value = run.length := by
    rw [← length_flatten, hflat]
  refine ⟨Buffer.ofElems_eq run, ?_⟩
  constructor
  case elements => exact hflat
  case accepted => rw [hfringe.check_eq, htotal]
  case sizes => exact hchunked.sizes_eq
  case kinds =>
    intro n hn
    rw [hfringe.isPart_iff hn, htotal]
  case count => rw [hchunked.length_eq, chunk_count_eq]
  case fewest =>
    intro nodes hnodes
    -- Of what an accepted list is, only that no node of it holds more than a full leaf is needed.
    obtain ⟨-, hcount⟩ := (check_eq_ok_iff nodes _).mp hnodes
    have hle := totalSize_le nodes
    rw [← hcount, Nat.mul_comm] at hle
    rw [hchunked.length_eq, chunk_count_eq, Nat.div_le_iff_le_mul_add_pred Buffer.maxLeaf_pos]
    omega
  case events => exact hchunked.events_eq

/-- Two elements too many for a full leaf are shared out with its own. -/
example : chunkSizes (47 / maxLeaf) (47 % maxLeaf) = [15, 15, 8, 9] ∧
    chunkEvents (47 / maxLeaf) (47 % maxLeaf) = [.absorbed 2 17] := by decide

end LeafFringe
