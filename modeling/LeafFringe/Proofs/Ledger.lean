import LeafFringe.Proofs.Editing
import LeafFringe.Proofs.Site.Outcome

/-!
# What the ledgers say about the nodes

An edit of a leaf reports itself once, unless nothing but the leaf has changed. The line in the
trace and the counter are those of the branch that was taken, and the number in the line can be
read off the leaves. So the counters of a run of edits account for the number of nodes.
-/

namespace LeafFringe

variable {α : Type}

/-- What an insertion has reported, by what became of the leaf. -/
def Insertion.Reported (name : String) (s : Site α) (done : Logged (Insertion α)) : Prop :=
  match done.value with
  | .replaced _ => done.trace name = [] ∧ done.counters = []
  | .shiftedLeft left _ => ∃ old ∈ s.left, ∃ moved, left.size = old.size + moved ∧
      done.trace name =
        [name ++ ": pushing " ++ toString moved ++ " elements to the left sibling"] ∧
      done.counters = ["leaf::insert::shift_left"]
  | .shiftedRight _ right => ∃ old ∈ s.right, ∃ moved, right.size = old.size + moved ∧
      done.trace name =
        [name ++ ": pushing " ++ toString moved ++ " elements to the right sibling"] ∧
      done.counters = ["leaf::insert::shift_right"]
  | .split left _ =>
      done.trace name = [name ++ ": splitting a full leaf at " ++ toString left.size] ∧
      done.counters = ["leaf::insert::split"]

/-- What a removal has reported, by what became of the leaf. -/
def Removal.Reported (name : String) (s : Site α) (done : Logged (Removal α)) : Prop :=
  match done.value with
  | .shrunk _ => done.trace name = [] ∧ done.counters = []
  | .borrowedLeft left _ => ∃ old ∈ s.left, ∃ moved, old.size = left.size + moved ∧
      done.trace name =
        [name ++ ": stealing " ++ toString moved ++ " elements from the left sibling"] ∧
      done.counters = ["leaf::remove::borrow_left"]
  | .borrowedRight _ right => ∃ old ∈ s.right, ∃ moved, old.size = right.size + moved ∧
      done.trace name =
        [name ++ ": stealing " ++ toString moved ++ " elements from the right sibling"] ∧
      done.counters = ["leaf::remove::borrow_right"]
  | .mergedLeft _ =>
      done.trace name = [name ++ ": merging with the left sibling"] ∧
      done.counters = ["leaf::remove::merge_left"]
  | .mergedRight _ =>
      done.trace name = [name ++ ": merging with the right sibling"] ∧
      done.counters = ["leaf::remove::merge_right"]
  | .underflow _ =>
      done.trace name = [name ++ ": underflow of a lone leaf"] ∧
      done.counters = ["leaf::remove::underflow"]

/-- A line and a counter that one edit of a leaf has reported, and nothing else beside them. -/
inductive Entry (α : Type) (name : String) : (line counter : String) → Prop
  | inserted {s : Site α} {pos : Nat} {val : α} {done : Logged (Insertion α)}
      {line counter : String} (call : s.insert pos val = .ok done)
      (trace : done.trace name = [line]) (counters : done.counters = [counter]) :
      Entry α name line counter
  | removed {s : Site α} {pos : Nat} {done : Logged (Removal α)}
      {line counter : String} (call : s.remove pos = .ok done)
      (trace : done.trace name = [line]) (counters : done.counters = [counter]) :
      Entry α name line counter

/-- The counters account for a change in the number of nodes. -/
def Accounts (before after : Nat) (counters : List String) : Prop :=
  after + counters.count "leaf::remove::merge_left" +
      counters.count "leaf::remove::merge_right" =
    before + counters.count "leaf::insert::split"

theorem Accounts.refl (count : Nat) : Accounts count count [] := rfl

theorem Accounts.append {before between after : Nat} {first second : List String}
    (h₁ : Accounts before between first) (h₂ : Accounts between after second) :
    Accounts before after (first ++ second) := by
  simp only [Accounts, List.count_append] at *
  omega

/-- Nodes that stay as they are may be counted on both sides. -/
theorem Accounts.beside {before after : Nat} {counters : List String}
    (h : Accounts before after counters) (others : Nat) :
    Accounts (before + others) (after + others) counters := by
  simp only [Accounts] at *
  omega

namespace Site

namespace Settles

variable {s : Site α} {run : List α} {done : Logged (Insertion α)}

theorem reported (h : Settles s run done) (hrun : run.length = s.node.size + 1)
    (name : String) : Insertion.Reported name s done := by
  cases h with
  | replaced n room hn => exact ⟨rfl, rfl⟩
  | shiftedLeft l a b full hl room ha hb =>
    refine ⟨l, hl, handedOver l.size, ?_, rfl, rfl⟩
    rw [Leaf.size_of_append ha, l.length_toList, List.length_take, handedOver]
    omega
  | shiftedRight r a b full noLeft hr room ha hb =>
    refine ⟨r, hr, handedOver r.size, ?_, rfl, rfl⟩
    rw [Leaf.size_of_append hb, r.length_toList, List.length_drop, handedOver]
    omega
  | split a b full noLeft noRight ha hb =>
    have hfront : a.size = minLeaf := by
      have := minLeaf_eq
      have := maxLeaf_eq
      rw [← a.length_toList, ha, List.length_take]
      omega
    simp only [Insertion.Reported, hfront]
    exact ⟨rfl, rfl⟩

theorem silent_iff (h : Settles s run done) (name : String) :
    done.trace name = [] ∧ done.counters = [] ↔ done.value.label = "Replaced" := by
  cases h <;> simp [Logged.trace, Logged.counters, Insertion.label]

theorem accounts (h : Settles s run done) :
    Accounts s.leaves.length
      (done.value.rebuild (s.left.map Node.leaf) (s.right.map Node.leaf)).length
      done.counters := by
  rw [h.length_rebuild]
  cases h <;> rfl

theorem entries (h : Settles s run done) {pos : Nat} {val : α}
    (call : s.insert pos val = .ok done) (name : String) :
    List.Forall₂ (Entry α name) (done.trace name) done.counters := by
  cases h with
  | replaced => exact .nil
  | _ => exact .cons (.inserted call rfl rfl) .nil

theorem rebuild_ne_nil (h : Settles s run done) :
    done.value.rebuild (s.left.map Node.leaf) (s.right.map Node.leaf) ≠ [] := by
  cases h <;> simp [Insertion.rebuild]

end Settles

namespace Recovers

variable {s : Site α} {rest : List α} {done : Logged (Removal α)}

theorem reported (h : Recovers s rest done) (name : String) :
    Removal.Reported name s done := by
  cases h with
  | borrowedLeft l a b least hl spare ha hb =>
    refine ⟨l, hl, lent l.size, ?_, rfl, rfl⟩
    rw [← a.length_toList, ha, List.length_take, l.length_toList, lent]
    omega
  | borrowedRight r a b least noLeft hr spare ha hb =>
    refine ⟨r, hr, lent r.size, ?_, rfl, rfl⟩
    rw [← b.length_toList, hb, List.length_drop, r.length_toList, lent]
    omega
  | _ => exact ⟨rfl, rfl⟩

theorem silent_iff (h : Recovers s rest done) (name : String) :
    done.trace name = [] ∧ done.counters = [] ↔ done.value.label = "Shrunk" := by
  cases h <;> simp [Logged.trace, Logged.counters, Removal.label]

theorem accounts (h : Recovers s rest done) :
    Accounts s.leaves.length
      (done.value.rebuild (s.left.map Node.leaf) (s.right.map Node.leaf)).length
      done.counters := by
  rw [← h.length_rebuild]
  cases h <;> rfl

theorem entries (h : Recovers s rest done) {pos : Nat} (call : s.remove pos = .ok done)
    (name : String) : List.Forall₂ (Entry α name) (done.trace name) done.counters := by
  cases h with
  | shrunk => exact .nil
  | _ => exact .cons (.removed call rfl rfl) .nil

theorem rebuild_ne_nil (h : Recovers s rest done) :
    done.value.rebuild (s.left.map Node.leaf) (s.right.map Node.leaf) ≠ [] := by
  cases h <;> simp [Removal.rebuild]

end Recovers

end Site

/-- The ledgers agree with each other, and with the nodes before and after. -/
structure Reconciled (name : String) (before : List (Node α)) (done : Logged (List (Node α))) :
    Prop where
  nodes : Accounts before.length done.value.length done.counters
  entries : List.Forall₂ (Entry α name) (done.trace name) done.counters

theorem Reconciled.refl (name : String) (nodes : List (Node α)) :
    Reconciled name nodes (pure nodes) :=
  ⟨.refl _, .nil⟩

theorem Reconciled.trans {name : String} {before : List (Node α)}
    {first second : Logged (List (Node α))} (h₁ : Reconciled name before first)
    (h₂ : Reconciled name first.value second) :
    Reconciled name before ⟨second.value, first.events ++ second.events⟩ := by
  constructor
  · simpa [Logged.counters] using h₁.nodes.append h₂.nodes
  · simpa [Logged.trace, Logged.counters] using List.rel_append h₁.entries h₂.entries

namespace Focus

variable {f : Focus α} {s : Site α}

theorem splice_ne_nil (f : Focus α) {new : List (Node α)} (h : new ≠ []) :
    f.splice new ≠ [] := by
  simp [splice, h]

/-- An edit replaces the leaf and its siblings. The other nodes count on both sides. -/
theorem IsSite.reconciled {β : Type} (hs : f.IsSite s) {name : String} {done : Logged β}
    {rebuild : β → List (Node α)}
    (hnodes : Accounts s.leaves.length (rebuild done.value).length done.counters)
    (hentries : List.Forall₂ (Entry α name) (done.trace name) done.counters) :
    Reconciled name f.nodes ((fun how => f.splice (rebuild how)) <$> done) := by
  let others := f.before.dropLast.length + f.after.tail.length
  have hleft := congrArg List.length f.dropLast_left?
  have hright := congrArg List.length f.right?_tail
  rw [hs.left, List.length_append] at hleft
  rw [hs.right, List.length_append] at hright
  have hbefore : f.nodes.length = s.leaves.length + others := by
    rw [s.length_leaves, nodes, List.length_append, List.length_cons]
    omega
  have hafter : (f.splice (rebuild done.value)).length =
      (rebuild done.value).length + others := by
    simp only [splice, List.length_append, others]
    omega
  constructor
  · rw [hbefore, Logged.value_map, hafter, Logged.counters_map]
    exact hnodes.beside others
  · simpa using hentries

end Focus

namespace Fringe

theorem isTiny_of_leaves {nodes : List (Node α)} (h : AllLeaves nodes) (hne : nodes ≠ []) :
    isTiny nodes = false := by
  obtain ⟨n, rest, rfl⟩ := List.exists_cons_of_ne_nil hne
  obtain ⟨l, rfl⟩ := Node.exists_leaf ((allLeaves_cons n rest).mp h).1
  rfl

variable (name : String) {nodes : List (Node α)} (h : AllLeaves nodes) (hne : nodes ≠ [])
include h hne

theorem reconciled_insert {pos : Nat} (hpos : pos ≤ totalSize nodes) (val : α) (bias : Bias) :
    ∃ done, insert nodes pos val bias = .ok done ∧ done.value.nodes ≠ [] ∧
      Reconciled name nodes (Edited.nodes <$> done) := by
  obtain ⟨f, s, done, rfl, hs, -, hdone, hinsert⟩ := exists_insert h hne hpos val bias
  obtain ⟨-, hsettles⟩ := Site.settles_of_insert hdone
  refine ⟨_, hinsert, f.splice_ne_nil hsettles.rebuild_ne_nil, ?_⟩
  rw [← comp_map]
  exact hs.reconciled hsettles.accounts (hsettles.entries hdone name)

theorem reconciled_remove {pos : Nat} (hpos : pos < totalSize nodes) :
    ∃ done, remove nodes pos = .ok done ∧ done.value.nodes ≠ [] ∧
      Reconciled name nodes (Edited.nodes <$> done) := by
  obtain ⟨f, s, done, rfl, hs, -, hdone, hremove⟩ := exists_remove h hne hpos
  obtain ⟨-, hrecovers⟩ := Site.recovers_of_remove hdone
  refine ⟨_, hremove, f.splice_ne_nil hrecovers.rebuild_ne_nil, ?_⟩
  rw [← comp_map]
  exact hs.reconciled hrecovers.accounts (hrecovers.entries hdone name)

end Fringe

namespace Edit

/-- The edit goes to one leaf and its neighbours. -/
def IsLocal : Edit α → Prop
  | insert _ _ _ => True
  | remove _ => True
  | _ => False

/-- Carries out edits one after the other, and keeps all that they report. -/
def perform : List (Edit α) → List (Node α) → Outcome (List (Node α))
  | [], nodes => return nodes
  | e :: edits, nodes => do
    let edited ← e.apply nodes
    perform edits edited.nodes

/-- Before each of the edits there are leaves only. -/
def AmongLeaves : List (Edit α) → List (Node α) → Prop
  | [], _ => True
  | e :: edits, nodes =>
    AllLeaves nodes ∧ ∀ done, e.apply nodes = .ok done → AmongLeaves edits done.value.nodes

theorem reconciled_apply (name : String) {e : Edit α} (hlocal : e.IsLocal)
    {nodes : List (Node α)} (h : AllLeaves nodes) (hne : nodes ≠ []) :
    ∃ done, e.apply nodes = .ok done ∧ done.value.nodes ≠ [] ∧
      Reconciled name nodes (Edited.nodes <$> done) := by
  have htiny := Fringe.isTiny_of_leaves h hne
  cases e with
  | insert pos val bias =>
    have hpos := Nat.mod_lt pos (Nat.succ_pos (totalSize nodes))
    simpa [apply, htiny] using
      Fringe.reconciled_insert name h hne (Nat.lt_succ_iff.mp hpos) val bias
  | remove pos =>
    simpa [apply, htiny] using Fringe.reconciled_remove name h hne (h.mod_lt hne pos)
  | _ => cases hlocal

/-- Among leaves a run of edits is carried out to its end, and each edit adds to the ledgers what
they need to account for all nodes. -/
theorem reconciled_perform (name : String) {edits : List (Edit α)}
    (hlocal : ∀ e ∈ edits, e.IsLocal) {nodes : List (Node α)} (hne : nodes ≠ [])
    (h : AmongLeaves edits nodes) :
    ∃ done, perform edits nodes = .ok done ∧ Reconciled name nodes done := by
  induction edits generalizing nodes with
  | nil => exact ⟨pure nodes, rfl, .refl name nodes⟩
  | cons e edits ih =>
    obtain ⟨hhead, htail⟩ := List.forall_mem_cons.mp hlocal
    obtain ⟨first, hfirst, hnext, hstep⟩ := reconciled_apply name hhead h.1 hne
    obtain ⟨rest, hrest, hrun⟩ := ih htail hnext (h.2 first hfirst)
    refine ⟨⟨rest.value, first.events ++ rest.events⟩, ?_, ?_⟩
    · rw [perform, hfirst, Outcome.ok_bind, hrest, Outcome.after_ok]
    · simpa using hstep.trans hrun

end Edit

/-- An edit of a leaf reports once what it has done, and nothing if only that leaf has changed.
Over a run of edits the two ledgers agree entry by entry, and their splits and merges are the
change in the number of nodes. -/
theorem ledgers_account_for_the_nodes (name : String) :
    (∀ (s : Site α) (pos : Nat) (val : α) (done : Logged (Insertion α)),
      s.insert pos val = .ok done →
        Insertion.Reported name s done ∧
          (done.trace name = [] ∧ done.counters = [] ↔ done.value.label = "Replaced")) ∧
    (∀ (s : Site α) (pos : Nat) (done : Logged (Removal α)), s.remove pos = .ok done →
      Removal.Reported name s done ∧
        (done.trace name = [] ∧ done.counters = [] ↔ done.value.label = "Shrunk")) ∧
    (∀ (edits : List (Edit α)) (nodes : List (Node α)), (∀ e ∈ edits, e.IsLocal) →
      nodes ≠ [] → Edit.AmongLeaves edits nodes →
        ∃ done, Edit.perform edits nodes = .ok done ∧ Reconciled name nodes done) := by
  refine ⟨?_, ?_, ?_⟩
  · intro s pos val done hdone
    obtain ⟨hle, hsettles⟩ := Site.settles_of_insert hdone
    have hrun := List.length_insertIdx_of_le_length hle val
    exact ⟨hsettles.reported hrun name, hsettles.silent_iff name⟩
  · intro s pos done hdone
    obtain ⟨-, hrecovers⟩ := Site.recovers_of_remove hdone
    exact ⟨hrecovers.reported name, hrecovers.silent_iff name⟩
  · intro edits nodes hlocal hne h
    exact Edit.reconciled_perform name hlocal hne h

/-- A full leaf is split, and its halves merge again after the next edit. -/
theorem ledgers_account_for_a_split_and_a_merge :
    let full : Leaf Nat := ⟨List.range 15, by decide, by decide⟩
    let half : Leaf Nat := ⟨List.range 8, by decide, by decide⟩
    let edits : List (Edit Nat) := [.insert 3 99 .left, .remove 0]
    (∃ done, ({ node := full } : Site Nat).insert 3 99 = .ok done ∧
      Insertion.Reported "IntLeaf" { node := full } done) ∧
    (∃ done, ({ left := some half, node := half } : Site Nat).remove 7 = .ok done ∧
      Removal.Reported "IntLeaf" { left := some half, node := half } done) ∧
    (∀ e ∈ edits, e.IsLocal) ∧ [Node.leaf full] ≠ [] ∧
      Edit.AmongLeaves edits [.leaf full] ∧
      ∃ done, Edit.perform edits [.leaf full] = .ok done ∧
        Reconciled "IntLeaf" [.leaf full] done ∧
        done.counters = ["leaf::insert::split", "leaf::remove::merge_right"] := by
  intro full half edits
  obtain ⟨hinsert, hremove, hrun⟩ := @ledgers_account_for_the_nodes Nat "IntLeaf"
  have hlocal : ∀ e ∈ edits, e.IsLocal := by simp [edits, Edit.IsLocal]
  have hamong : Edit.AmongLeaves edits [.leaf full] := by
    refine ⟨by decide, fun first hfirst => ⟨?_, fun _ _ => trivial⟩⟩
    cases hfirst
    decide
  obtain ⟨done, hdone, hreconciled⟩ := hrun edits [.leaf full] hlocal (by simp) hamong
  have hcounters : (Edit.perform edits [.leaf full]).logged.counters =
      ["leaf::insert::split", "leaf::remove::merge_right"] := by decide +kernel
  rw [hdone, Outcome.logged_ok, Logged.counters_map] at hcounters
  exact ⟨⟨_, rfl, (hinsert _ 3 99 _ rfl).1⟩, ⟨_, rfl, (hremove _ 7 _ rfl).1⟩, hlocal,
    by simp, hamong, done, hdone, hreconciled, hcounters⟩

end LeafFringe
