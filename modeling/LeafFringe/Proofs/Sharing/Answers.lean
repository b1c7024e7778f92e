import LeafFringe.Proofs.Sharing.Lookup
import LeafFringe.Proofs.Windows

/-!
# What an answered call has made

`Makes` says once, call by call, what the nodes are that an answered call has made and of what
they are made. Everything else about answers is read off its cases.
-/

namespace LeafFringe

variable {α : Type}

theorem Leaf.toList_of_ofList {run : List α} {l : Leaf α} (h : ofList run = .ok l) :
    l.toList = run := by
  unfold ofList at h
  split at h
  · cases h
    rfl
  · cases h

theorem PartialLeaf.toList_of_ofList {run : List α} {p : PartialLeaf α}
    (h : ofList run = .ok p) : p.toList = run := by
  unfold ofList at h
  split at h
  · cases h
    rfl
  · cases h

/-- The call makes no nodes and only finds something out. -/
def Call.looksUp : Call α → Bool
  | .get? _ _ | .get _ _ | .eq _ _ | .hashEq _ _ | .sameRun _ _ | .check _ | .checkOne _
  | .flatten _ => true
  | _ => false

namespace Pool

/-- A site and its siblings as they are held are what these slots hold. -/
structure IsSiteOf (pool : Pool α) (left : Option Nat) (node : Nat) (right : Option Nat)
    (l : Option (Held α)) (site : Site α) (r : Option (Held α)) : Prop where
  left : left.map pool.held? = l.map some
  leftLeaf : l.map Held.node = site.left.map Node.leaf
  node : pool.node? node = some (.leaf site.node)
  right : right.map pool.held? = r.map some
  rightLeaf : r.map Held.node = site.right.map Node.leaf

/-- The nodes that an answered call has made. -/
inductive Makes (pool : Pool α) : Call α → List (Held α) → Prop
  | leaf (l : Leaf α) : Makes pool (.leaf l.toList) [Carrier.built (.leaf l)]
  | part (p : PartialLeaf α) : Makes pool (.part p.toList) [Carrier.built (.part p)]
  | ofElems (elems : List α) : Makes pool (.ofElems elems) (LeafFringe.ofElems elems).value
  | clone {node : Nat} {c : Held α} (hc : pool.held? node = some c) : Makes pool (.clone node) [c]
  | insert {left right : Option Nat} {node pos : Nat} {val : α} {l r : Option (Held α)}
      {site : Site α} {done : Logged (Insertion α)} (hsite : pool.IsSiteOf left node right l site r)
      (hdone : site.insert pos val = .ok done) :
      Makes pool (.insert left node right pos val) (done.value.rebuild l r)
  | remove {left right : Option Nat} {node pos : Nat} {l r : Option (Held α)} {site : Site α}
      {done : Logged (Removal α)} (hsite : pool.IsSiteOf left node right l site r)
      (hdone : site.remove pos = .ok done) :
      Makes pool (.remove left node right pos) (done.value.rebuild l r)
  | slice {node pos size : Nat} {l : Leaf α} {n : Node α} (hl : pool.node? node = some (.leaf l))
      (hn : n.toList = (l.toList.drop pos).take size) :
      Makes pool (.slice node pos size) [Carrier.built n]
  | reverse {node : Nat} {l : Leaf α} (hl : pool.node? node = some (.leaf l)) :
      Makes pool (.reverse node) [Carrier.built (.leaf l.reverse)]
  | set {node pos : Nat} {val : α} {l new : Leaf α} (hl : pool.node? node = some (.leaf l))
      (hnew : new.toList = l.toList.set pos val) :
      Makes pool (.set node pos val) [Carrier.built (.leaf new)]
  | append {out : List Nat} {next : Nat} {nodes : List (Held α)} {c : Held α}
      (hout : out.map pool.held? = nodes.map some) (hc : pool.held? next = some c) :
      Makes pool (.append out next) (LeafFringe.append nodes c).value
  | concat {left right : List Nat} {out next : List (Held α)}
      (hleft : left.map pool.held? = out.map some) (hright : right.map pool.held? = next.map some) :
      Makes pool (.concat left right) (LeafFringe.concat out next).value
  | looked {call : Call α} (hcall : call.looksUp = true) : Makes pool call []

variable {pool : Pool α}

theorem isSiteOf_of_siteOf {left right : Option Nat} {node : Nat} {l r : Option (Held α)}
    {site : Site α} (h : pool.siteOf left node right = .ok (l, site, r)) :
    pool.IsSiteOf left node right l site r := by
  simp only [siteOf, bind_eq_ok_iff] at h
  obtain ⟨leftSibling, hleft, ⟨held, leaf⟩, hnode, rightSibling, hright, heq⟩ := h
  cases heq
  exact {
    left := (held?_of_mapM_heldLeaf hleft).1
    leftLeaf := (held?_of_mapM_heldLeaf hleft).2
    node := node?_of_heldLeaf hnode
    right := (held?_of_mapM_heldLeaf hright).1
    rightLeaf := (held?_of_mapM_heldLeaf hright).2 }

theorem makes_of_answer [BEq α] {call : Call α} {done : Logged (Answer α)}
    (h : pool.answer call = .ok done) : Makes pool call done.value.made := by
  cases call with
  | leaf elems =>
    simp only [answer, bind_eq_ok_iff, ofArity_eq_ok_iff, Carrier.leaf, map_eq_ok_iff] at h
    obtain ⟨_, ⟨l, hl, rfl⟩, heq⟩ := h
    cases heq
    cases Leaf.toList_of_ofList hl
    exact .leaf l
  | part elems =>
    simp only [answer, bind_eq_ok_iff, ofArity_eq_ok_iff, Carrier.part, map_eq_ok_iff] at h
    obtain ⟨_, ⟨p, hp, rfl⟩, heq⟩ := h
    cases heq
    cases PartialLeaf.toList_of_ofList hp
    exact .part p
  | ofElems elems =>
    cases h
    exact .ofElems elems
  | clone node =>
    simp only [answer, bind_eq_ok_iff, held_eq_ok_iff] at h
    obtain ⟨c, hc, heq⟩ := h
    cases heq
    exact .clone hc
  | insert left node right pos val =>
    simp only [answer, bind_eq_ok_iff, ofOutcome_eq_ok_iff] at h
    obtain ⟨⟨l, site, r⟩, hsite, edited, hedited, heq⟩ := h
    cases heq
    exact .insert (isSiteOf_of_siteOf hsite) hedited
  | remove left node right pos =>
    simp only [answer, bind_eq_ok_iff, ofOutcome_eq_ok_iff] at h
    obtain ⟨⟨l, site, r⟩, hsite, edited, hedited, heq⟩ := h
    cases heq
    exact .remove (isSiteOf_of_siteOf hsite) hedited
  | slice node pos size =>
    simp only [answer, bind_eq_ok_iff, ofFault_eq_ok_iff, Carrier.slice, map_eq_ok_iff] at h
    obtain ⟨⟨_, l⟩, hl, _, ⟨n, hn, rfl⟩, heq⟩ := h
    cases heq
    exact .slice (node?_of_heldLeaf hl) (Leaf.slice_eq_ok_iff.mp hn).2
  | reverse node =>
    simp only [answer, bind_eq_ok_iff] at h
    obtain ⟨⟨_, l⟩, hl, heq⟩ := h
    cases heq
    exact .reverse (node?_of_heldLeaf hl)
  | set node pos val =>
    simp only [answer, bind_eq_ok_iff, ofFault_eq_ok_iff, Carrier.set, map_eq_ok_iff] at h
    obtain ⟨⟨_, l⟩, hl, _, ⟨new, hnew, rfl⟩, heq⟩ := h
    cases heq
    exact .set (node?_of_heldLeaf hl) (Leaf.set_eq_ok_iff.mp hnew).2
  | append out next =>
    simp only [answer, bind_eq_ok_iff, held_eq_ok_iff] at h
    obtain ⟨nodes, hnodes, c, hc, heq⟩ := h
    cases heq
    exact .append (held?_of_mapM hnodes) hc
  | concat left right =>
    simp only [answer, bind_eq_ok_iff] at h
    obtain ⟨out, hout, next, hnext, heq⟩ := h
    cases heq
    exact .concat (held?_of_mapM hout) (held?_of_mapM hnext)
  | get? | checkOne | flatten =>
    simp only [answer, bind_eq_ok_iff] at h
    obtain ⟨_, -, heq⟩ := h
    cases heq
    exact .looked rfl
  | get | eq | hashEq | sameRun | check =>
    simp only [answer, bind_eq_ok_iff] at h
    obtain ⟨_, -, _, -, heq⟩ := h
    cases heq
    exact .looked rfl

end Pool

end LeafFringe
