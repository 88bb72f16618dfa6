import Coordination.Proofs.Coordinator.SessionEndLocks
import Coordination.Proofs.Coordinator.Reaping

/-!
# What goes with the handles of a session

When a session ends, its handles end one after another, and nodes that nobody uses any more go with
them. Each node goes with the last handle that is open on it or below it. When that handle has been
retired, those are told who still have a handle on the node above.
-/

namespace Coordination

/-- A node is another one or below it. -/
def Tree.Within (t : Tree) : NodeId → NodeId → Prop :=
  Relation.ReflTransGen fun i j => t.parent? i = some j

namespace State

/-- What the handles on its parent are told when a node goes, but for those that are closed. -/
def notices (s : State) (closed : List HandleId) (id : NodeId) : List Command :=
  match s.tree.get? id, (s.tree.parent? id).bind s.tree.get? with
  | some n, some p =>
    (p.handles.keys.filter (· ∉ closed)).flatMap
      (telling s.handles (.childRemoved (Path.name n.path)))
  | _, _ => []

/-- Handles are retired one after another, and nodes go with them; handles that have been retired by
then are not told. -/
def departures (s : State) (list : List HandleId) (lost : HandleId → List NodeId) : List Command :=
  list.flatMap fun h => .retire h :: (lost h).flatMap (s.notices (list.filter (¬ h < ·)))

/-- The nodes that go while the handles of a list end are shared out among these: each node goes
with the last handle that is open on it or below it. -/
structure Shares (s : State) (list : List HandleId) (lost : HandleId → List NodeId) (s' : State) :
    Prop where
  gone : ∀ i n, s.tree.get? i = some n → (s'.tree.get? i = none ↔ ∃ h ∈ list, i ∈ lost h)
  once : (list.flatMap lost).Nodup
  ephemeral : ∀ h ∈ list, ∀ i ∈ lost h, ∃ n, s.tree.get? i = some n ∧ n.ephemeral = true
  kept : ∀ h ∈ list, ∀ i ∈ lost h, ∃ r, s.handles.get? h = some r ∧ s.tree.Within r.node i
  last : ∀ h ∈ list, ∀ i ∈ lost h, ∀ h' r', s.handles.get? h' = some r' →
    s.tree.Within r'.node i → h' ∈ list ∧ ¬ h < h'

/-- A handle ends, and nodes go with it that nobody else keeps. -/
structure Takes (s : State) (handle : HandleId) (chain : List NodeId) (s' : State) : Prop where
  sheds : s.Sheds {h | h ∈ [handle]} {i | i ∈ chain} s'
  apart : chain.Nodup
  outbox : s'.outbox = s.outbox ++ .retire handle :: chain.flatMap (s.notices [handle])
  ephemeral : ∀ i ∈ chain, ∃ n, s.tree.get? i = some n ∧ n.ephemeral = true
  kept : ∀ i ∈ chain, ∃ r, s.handles.get? handle = some r ∧ s.tree.Within r.node i
  last : ∀ i ∈ chain, ∀ h r, s.handles.get? h = some r → s.tree.Within r.node i → h = handle

variable {s s' s₁ s₂ s₃ : State} {list : List HandleId} {handle h : HandleId} {r : Handle}
variable {id node start top i : NodeId} {chain : List NodeId} {below last : Option NodeId}
variable {session : SessionId} {dying : Set SessionId} {gone : Set HandleId} {lost : Set NodeId}

/-! ## Nodes that are left -/

/-- A node that is gone does not come back. -/
lemma Sheds.absent (sheds : s.Sheds gone lost s') (found : s.tree.get? id = none) :
    s'.tree.get? id = none := by
  refine Option.eq_none_iff_forall_ne_some.mpr fun n' found' => ?_
  obtain ⟨n, old⟩ := sheds.old_node id n' found'
  exact nomatch found.symm.trans old

/-- The nodes that are left are one below the other as before. -/
lemma Sheds.parent?_eq (sheds : s.Sheds gone lost s') (linked : s.Linked) (linked' : s'.Linked)
    (out : id ∉ lost) : s'.tree.parent? id = s.tree.parent? id ∧
      ∀ above, s.tree.parent? id = some above → above ∉ lost := by
  cases found : s.tree.get? id with
  | none =>
    have nowhere : s.tree.parent? id = none := by
      rw [Tree.parent?, found]
      rfl
    rw [nowhere, Tree.parent?, sheds.absent found]
    exact ⟨rfl, by simp⟩
  | some n =>
    obtain ⟨n', found', path, -⟩ := sheds.node id out n found
    rw [Tree.parent?_of_get? found, Tree.parent?_of_get? found', path]
    split
    case isTrue => exact ⟨rfl, by simp⟩
    case isFalse other =>
      have notRoot : n'.path ≠ Path.root := (linked'.tree.path_eq_root_iff found').not.mpr other
      obtain ⟨above, p', foundAbove', nodeAbove', -⟩ :=
        linked'.tree.parent _ id (linked'.tree.find?_path found') notRoot
      obtain ⟨p'', nodeAbove'', pathAbove⟩ := linked'.tree.get?_of_find? foundAbove'
      obtain ⟨kept, p, nodeAbove, same, -⟩ := sheds.node_of nodeAbove''
      have foundAbove := linked.tree.find?_path nodeAbove
      rw [path] at foundAbove' pathAbove
      rw [← same, pathAbove] at foundAbove
      refine ⟨foundAbove'.trans foundAbove.symm, fun above' foundAbove'' => ?_⟩
      rwa [← Option.some.inj (foundAbove.symm.trans foundAbove'')]

/-- So a node that is left is below the same nodes as before. -/
lemma Sheds.within_iff (sheds : s.Sheds gone lost s') (linked : s.Linked) (linked' : s'.Linked)
    (out : id ∉ lost) : s'.tree.Within id node ↔ s.tree.Within id node := by
  constructor
  · refine fun within => Relation.ReflTransGen.mono (fun i j parent => ?_) _ _ within
    obtain ⟨n', found', -⟩ := Option.bind_eq_some_iff.mp parent
    rwa [(sheds.parent?_eq linked linked' (sheds.node_of found').1).1] at parent
  · intro within
    induction within using Relation.ReflTransGen.head_induction_on with
    | refl => exact .refl
    | head parent _ ih =>
      obtain ⟨same, kept⟩ := sheds.parent?_eq linked linked' out
      exact .head (same.trans parent) (ih (kept _ parent))

/-- What will be announced when a node goes that is still left. -/
lemma Sheds.notices_eq {closed : List HandleId} (sheds : s.Sheds {h | h ∈ closed} lost s')
    (linked : s.Linked) (linked' : s'.Linked) (out : id ∉ lost) (closed' : List HandleId) :
    s'.notices closed' id = s.notices (closed ++ closed') id := by
  obtain ⟨parent, kept⟩ := sheds.parent?_eq linked linked' out
  rw [notices, notices, parent]
  cases found : s.tree.get? id with
  | none =>
    rw [sheds.absent found]
  | some n =>
    obtain ⟨n', found', path, -⟩ := sheds.node id out n found
    rw [found']
    cases foundAbove : s.tree.parent? id with
    | none => rfl
    | some above =>
      rw [Option.bind_some, Option.bind_some]
      cases nodeAbove : s.tree.get? above with
      | none => rw [sheds.absent nodeAbove]
      | some p =>
        obtain ⟨p', nodeAbove', -, -, -, -, seats⟩ :=
          sheds.node above (kept _ foundAbove) p nodeAbove
        rw [nodeAbove']
        have same : p'.handles.keys.filter (· ∉ closed') =
            p.handles.keys.filter (· ∉ closed ++ closed') := by
          refine eq_of_ascending (FinMap.keys_ascending.filter _) (FinMap.keys_ascending.filter _)
            fun h => ?_
          have seated := seats h
          simp only [List.mem_filter, FinMap.mem_keys, decide_eq_true_eq, List.mem_append, not_or,
            seated, Set.mem_ofPred_eq, and_assoc]
        dsimp only
        rw [same, path]
        refine List.flatMap_congr fun h mem => ?_
        have open' : h ∉ closed ++ closed' := of_decide_eq_true (List.mem_filter.mp mem).2
        have stays := sheds.closes.stays h fun gone => open' (List.mem_append_left _ gone)
        rw [telling, telling, stays]

/-- Where no node goes with a handle only the handle is announced. -/
lemma notices_nil (s : State) (id : NodeId) : s.notices [] id = s.parting id := by
  rw [notices, parting]
  cases s.tree.get? id with
  | none => rfl
  | some n => cases (s.tree.parent? id).bind s.tree.get? <;> simp

/-! ## Nodes that go with a handle -/

/-- A climb stays on the path from its start to the root. -/
lemma Climb.within (climb : s.Climb below id chain last top) (mem : i ∈ chain) :
    s.tree.Within id i := by
  induction climb with
  | stop => cases mem
  | step _ parent _ ih =>
    rcases List.mem_cons.mp mem with rfl | later
    · exact .refl
    · exact .head parent (ih later)

/-- A node of a climb is spent, and what is below it belongs to the climb. -/
lemma Climb.spent_of_mem (climb : s.Climb below id chain last top) (mem : i ∈ chain) :
    ∃ under, s.Spent under i ∧
      ∀ child, under = some child → child ∈ chain ∨ below = some child := by
  induction climb with
  | stop => cases mem
  | step spent _ _ ih =>
    rcases List.mem_cons.mp mem with rfl | later
    · exact ⟨_, spent, fun _ eq => .inr eq⟩
    · obtain ⟨under, spent, inside⟩ := ih later
      refine ⟨under, spent, fun child eq => .inl ?_⟩
      rcases inside child eq with mem | eq
      · exact List.mem_cons_of_mem _ mem
      · rw [Option.some.inj eq]
        exact List.mem_cons_self ..

/-- Whatever is below a node of a climb belongs to it as well. -/
lemma Climb.mem_of_within (climb : s.Climb none start chain last top) (mem : i ∈ chain)
    (within : s.tree.Within id i) : id ∈ chain := by
  induction within using Relation.ReflTransGen.head_induction_on with
  | refl => exact mem
  | head parent _ ih =>
    obtain ⟨under, spent, inside⟩ := climb.spent_of_mem ih
    exact (inside _ ((spent.only _).mp parent)).resolve_right nofun

/-- The nodes of a trail have gone, and no handle with them. -/
lemma Trail.sheds (trail : s.Trail start chain last top s') (linked : s.Linked)
    (settled : ∀ i, (s.locks.lock i).Settled) : s.Sheds ∅ {i | i ∈ chain} s' := by
  obtain ⟨climb, reaped, -, -⟩ := trail
  have closes : s.Closes ∅ s' := {
    next_handle := by rw [reaped.handles]
    next_session := by rw [reaped.sessions]
    ended := fun _ mem => absurd mem (Set.notMem_empty _)
    stays := fun _ _ => by rw [reaped.handles]
    session := fun _ x found => ⟨x, reaped.sessions ▸ found, rfl, rfl, by simp⟩
    old_session := fun _ x' found => ⟨x', reaped.sessions ▸ found⟩ }
  refine ⟨closes, reaped.store, reaped.gone, ?_, reaped.lock, ?_, ?_, ?_⟩
  · intro i mem
    obtain ⟨under, spent, -⟩ := climb.spent_of_mem mem
    refine ⟨linked.requests_of_not_held (settled i) spent.free, fun n node h seat => ?_⟩
    exact absurd ((linked.hasHandle_iff node).mpr ⟨h, seat⟩) spent.closed
  · intro i out n node
    by_cases eq : i = top
    · subst eq
      obtain ⟨path, isDir, ephemeral, attrs, handles⟩ := Tree.bereft_frame (t := s.tree) (n := n)
      refine ⟨_, by rw [reaped.top, node]; rfl, path, isDir, ephemeral, attrs, fun h => ?_⟩
      simp [handles]
    · refine ⟨n, (reaped.node i out eq).trans node, rfl, rfl, rfl, rfl, fun h => ?_⟩
      simp
  · intro i n' node'
    have out : i ∉ chain := fun mem => nomatch (reaped.gone i mem).1.symm.trans node'
    obtain ⟨n, node, -⟩ := Option.map_eq_some_iff.mp
      ((reaped.path_eq out).symm.trans (by rw [node']; rfl))
    exact ⟨n, node⟩
  · exact fun _ mem => absurd mem (Set.notMem_empty _)

/-- The first of several handles ends, and the nodes go that are not used any more. -/
lemma Leaving.takes (leaving : s.Leaving (handle :: list)) :
    ∃ chain, s.Takes handle chain (s.detach handle) ∧ (s.detach handle).Leaving list := by
  obtain ⟨r, found, uninvolved⟩ := leaving.head
  obtain ⟨-, -, -, left⟩ := leaving.detach
  have linked := leaving.linked
  let t := s.unseat handle r
  have linked' : t.Linked := linked.unseat found uninvolved
  have settled' : ∀ i, (t.locks.lock i).Settled := leaving.settled
  have detached : s.detach handle = t.reap r.node := by rw [State.detach, found]
  have one : ({handle} : Set HandleId) = {h | h ∈ [handle]} := by
    ext h
    simp
  have seat : s.Sheds {h | h ∈ [handle]} ∅ t := one ▸ linked.sheds_unseat found uninvolved
  have stays : ∀ i : NodeId, i ∉ (∅ : Set NodeId) := Set.notMem_empty
  obtain ⟨chain, last, top, trail, -⟩ := linked'.trail_reap settled' r.node
  have sheds := seat.trans (trail.sheds linked' settled')
  rw [Set.union_empty, Set.empty_union, ← detached] at sheds
  refine ⟨chain, ⟨sheds, trail.reaped.apart, ?_, fun i mem => ?_, fun i mem => ⟨r, found, ?_⟩,
    fun i mem => ?_⟩, left⟩
  · have told : chain.flatMap t.parting = chain.flatMap (s.notices [handle]) := by
      refine List.flatMap_congr fun i _ => ?_
      rw [← notices_nil, seat.notices_eq linked linked' (stays i)]
      rfl
    rw [detached, trail.reaped.outbox, told]
    exact List.append_assoc ..
  · obtain ⟨under, ⟨⟨n', node', ephemeral⟩, -⟩, -⟩ := trail.climb.spent_of_mem mem
    obtain ⟨-, n, node, -, -, same, -⟩ := seat.node_of node'
    exact ⟨n, node, same ▸ ephemeral⟩
  · exact (seat.within_iff linked linked' (stays _)).mp (trail.climb.within mem)
  · intro h r' found' within
    -- the node of the handle goes as well, so no other handle is open on it
    have within' := (seat.within_iff linked linked' (stays _)).mpr within
    have goes := trail.climb.mem_of_within mem within'
    obtain ⟨under, spent, -⟩ := trail.climb.spent_of_mem goes
    by_contra other
    exact spent.closed ⟨h, r', (seat.closes.stays h (by simpa using other)).trans found', rfl⟩

/-- What has gone with the first handle, and what goes with the others. -/
lemma Takes.shares {lost : HandleId → List NodeId} (takes : s₁.Takes handle chain s₂)
    (linked : s₁.Linked) (linked' : s₂.Linked) (ascending : (handle :: list).Pairwise (· < ·))
    (shares : s₂.Shares list lost s₃) (old : ∀ i, s₂.tree.get? i = none → s₃.tree.get? i = none) :
    s₁.Shares (handle :: list) (Function.update lost handle chain) s₃ := by
  obtain ⟨first, -⟩ := List.pairwise_cons.mp ascending
  have sheds := takes.sheds
  have own : Function.update lost handle chain handle = chain := Function.update_self ..
  have others : ∀ h ∈ list, Function.update lost handle chain h = lost h := by
    intro h mem
    refine Function.update_of_ne ?_ ..
    rintro rfl
    exact StrictOrder.irrefl _ (first h mem)
  -- what goes later is still there when the first handle has ended
  have later : ∀ h ∈ list, ∀ i ∈ lost h, i ∉ chain := by
    intro h mem i goes
    obtain ⟨n, node, -⟩ := shares.ephemeral h mem i goes
    exact (sheds.node_of node).1
  have seated : ∀ h r, s₂.handles.get? h = some r → r.node ∉ chain := by
    intro h r found
    obtain ⟨n, node, -⟩ := linked'.node_of_handle h r found
    exact (sheds.node_of node).1
  constructor
  case gone =>
    intro i n node
    rw [List.exists_mem_cons_iff, own]
    by_cases mem : i ∈ chain
    · exact iff_of_true (old i (sheds.gone_node i mem).1) (.inl mem)
    · obtain ⟨n', node', -⟩ := sheds.node i mem n node
      rw [shares.gone i n' node', or_iff_right mem]
      exact exists_congr fun h => and_congr_right fun mem => by rw [others h mem]
  case once =>
    have rest : list.flatMap (Function.update lost handle chain) = list.flatMap lost :=
      List.flatMap_congr others
    rw [List.flatMap_cons, own, rest]
    refine List.nodup_append.mpr ⟨takes.apart, shares.once, ?_⟩
    rintro i mem _ mem' rfl
    obtain ⟨h, mem', goes⟩ := List.mem_flatMap.mp mem'
    exact later h mem' i goes mem
  case ephemeral =>
    rw [List.forall_mem_cons, own]
    refine ⟨takes.ephemeral, fun h mem i goes => ?_⟩
    rw [others h mem] at goes
    obtain ⟨n', node', ephemeral⟩ := shares.ephemeral h mem i goes
    obtain ⟨-, n, node, -, -, same, -⟩ := sheds.node_of node'
    exact ⟨n, node, same ▸ ephemeral⟩
  case kept =>
    rw [List.forall_mem_cons, own]
    refine ⟨takes.kept, fun h mem i goes => ?_⟩
    rw [others h mem] at goes
    obtain ⟨r, found, within⟩ := shares.kept h mem i goes
    exact ⟨r, (sheds.closes.handle_of found).2,
      (sheds.within_iff linked linked' (seated h r found)).mp within⟩
  case last =>
    rw [List.forall_mem_cons, own]
    constructor
    · intro i mem h' r' found within
      obtain rfl := takes.last i mem h' r' found within
      exact ⟨List.mem_cons_self .., StrictOrder.irrefl _⟩
    · intro h mem i goes h' r' found within
      rw [others h mem] at goes
      by_cases eq : h' = handle
      · rw [eq]
        exact ⟨List.mem_cons_self .., StrictOrder.asymm (first h mem)⟩
      · have found' : s₂.handles.get? h' = some r' :=
          (sheds.closes.stays h' (by simpa using eq)).trans found
        obtain ⟨mem', le⟩ := shares.last h mem i goes h' r' found'
          ((sheds.within_iff linked linked' (seated h' r' found')).mpr within)
        exact ⟨List.mem_cons_of_mem _ mem', le⟩

/-- What is announced when the first handle ends, and when the others do. -/
lemma Takes.departures {lost : HandleId → List NodeId} (takes : s₁.Takes handle chain s₂)
    (linked : s₁.Linked) (linked' : s₂.Linked) (ascending : (handle :: list).Pairwise (· < ·))
    (later : ∀ h ∈ list, ∀ i ∈ lost h, i ∉ chain) :
    s₁.departures (handle :: list) (Function.update lost handle chain) =
      (.retire handle :: chain.flatMap (s₁.notices [handle])) ++ s₂.departures list lost := by
  obtain ⟨first, -⟩ := List.pairwise_cons.mp ascending
  have alone : (handle :: list).filter (¬ handle < ·) = [handle] := by
    have none : list.filter (¬ handle < ·) = [] :=
      List.filter_eq_nil_iff.mpr fun h mem => by simpa using first h mem
    rw [List.filter_cons_of_pos (by simpa using StrictOrder.irrefl handle), none]
  have upTo : ∀ h ∈ list, (handle :: list).filter (¬ h < ·) = [handle] ++ list.filter (¬ h < ·) :=
    fun h mem => List.filter_cons_of_pos (by simpa using StrictOrder.asymm (first h mem))
  rw [State.departures, List.flatMap_cons, Function.update_self, alone]
  refine congrArg _ (List.flatMap_congr fun h mem => ?_)
  have other : h ≠ handle := by
    rintro rfl
    exact StrictOrder.irrefl _ (first h mem)
  rw [Function.update_of_ne other, upTo h mem]
  refine congrArg _ (List.flatMap_congr fun i goes => ?_)
  exact (takes.sheds.notices_eq linked linked' (later h mem i goes) _).symm

/-- Handles end one after another. -/
lemma Leaving.shares (leaving : s.Leaving list) (ascending : list.Pairwise (· < ·)) : ∃ lost,
    s.Shares list lost (list.foldl State.detach s) ∧
      (list.foldl State.detach s).outbox = s.outbox ++ s.departures list lost := by
  induction list generalizing s with
  | nil =>
    refine ⟨fun _ => [], ⟨?_, List.nodup_nil, nofun, nofun, nofun⟩, (List.append_nil _).symm⟩
    intro i n node
    simp [node]
  | cons h rest ih =>
    obtain ⟨chain, takes, left⟩ := leaving.takes
    obtain ⟨lost, shares, outbox⟩ := ih left (List.pairwise_cons.mp ascending).2
    obtain ⟨_, sheds, -⟩ := left.detachAll
    have later : ∀ h ∈ rest, ∀ i ∈ lost h, i ∉ chain := by
      intro h mem i goes
      obtain ⟨n, node, -⟩ := shares.ephemeral h mem i goes
      exact (takes.sheds.node_of node).1
    refine ⟨Function.update lost h chain, takes.shares leaving.linked left.linked ascending shares
      fun i => sheds.absent, ?_⟩
    rw [takes.departures leaving.linked left.linked ascending later, List.foldl_cons, outbox,
      takes.outbox, List.append_assoc]

/-! ## The end of a session -/

/-- What is announced depends on the tree and the handles alone. -/
lemma notices_congr (tree : s₂.tree = s₁.tree) (handles : s₂.handles = s₁.handles) :
    s₂.notices = s₁.notices := by
  funext closed id
  rw [notices, notices, tree, handles]

/-- Only nodes and handles matter to what goes with which handle. -/
lemma Shares.congr {lost : HandleId → List NodeId} (shares : s₂.Shares list lost s')
    (tree : s₂.tree = s₁.tree) (handles : s₂.handles = s₁.handles) (tree' : s'.tree = s₃.tree) :
    s₁.Shares list lost s₃ := by
  obtain ⟨gone, once, ephemeral, kept, last⟩ := shares
  rw [tree] at gone ephemeral kept last
  rw [handles] at kept last
  rw [tree'] at gone
  exact ⟨gone, once, ephemeral, kept, last⟩

/-- The handles of a session ascend. -/
lemma ascending_handlesOf (s : State) (session : SessionId) :
    (s.handlesOf session).Pairwise (· < ·) := by
  unfold handlesOf
  split
  · exact List.Pairwise.nil
  · exact FinMap.keys_ascending

/-- What is announced when a session ends. -/
lemma Linked.outbox_teardown (linked : s.Linked) (tidy : s.Tidy dying ∅) (ends : session ∈ dying) :
    ∃ lost, s.Shares (s.handlesOf session) lost (s.teardown session) ∧
      (s.teardown session).outbox = s.outbox ++ s.releases session ++
        s.promotions (s.teardown session) ++ s.departures (s.handlesOf session) lost := by
  obtain ⟨-, leaving, -, -, tree, handles, -⟩ := linked.relieved tidy ends
  obtain ⟨lost, shares, outbox⟩ := leaving.shares (s.ascending_handlesOf session)
  refine ⟨lost, shares.congr tree handles rfl, outbox.trans ?_⟩
  rw [linked.outbox_relieved tidy ends, State.departures, State.departures,
    notices_congr tree handles]

/-- The same owners have the same handles. -/
lemma handlesOf_congr (same : SameOwners s₁.sessions s₂.sessions) (session : SessionId) :
    s₂.handlesOf session = s₁.handlesOf session := by
  have handles := same.handles session
  unfold handlesOf
  cases found : s₁.sessions.get? session <;> cases found' : s₂.sessions.get? session <;>
    simp_all

/-- Only waiters of other sessions are served when a session ends. -/
lemma Sound.promoted_destroyed (sound : s.Sound) {w : Waiter}
    (served : w ∈ s.promoted ((s.marked session).teardown session) id) :
    w.session ≠ session ∧
      ∃ r, s.handles.get? w.handle = some r ∧ r.session = w.session ∧ r.node = id := by
  obtain ⟨waits, holds⟩ := List.mem_filter.mp served
  have asked : w ∈ (s.locks.lock id).requests := List.mem_append_right _ waits
  refine ⟨?_, sound.linked.handle_of_request id w asked⟩
  obtain ⟨r, found, owner, -⟩ :=
    (sound.destroyed session).linked.handle_of_holder (of_decide_eq_true holds)
  have left := ((State.ended_destroyed sound session).handle _ _).mp found
  rintro rfl
  exact left.2 (List.mem_singleton.mpr owner)

end State

namespace Coordinator

variable {c : Coordinator} {session : SessionId}

/-- What is announced when a live session is destroyed falls into three parts. First those of its
handles that hold a lock are told that they lose it; then the waiters of other sessions that get a
lock are told so, node after node and in the order of the queue; then its handles are retired one
after another. Each node that goes is ephemeral and goes with the last handle of the session that is
open on it or below it: when that one has been retired, all handles are told that are still open on
the node above. -/
theorem Reachable.farewell_in_order (reached : c.Reachable Fault.refusals) (now : Instant)
    (live : c.state.Live session) : ∃ (s' : State) (lost : HandleId → List NodeId),
    c.perform now (.destroySession session) = ⟨.ok .done, { c with state := s' },
      c.state.releases session ++ c.state.promotions s' ++
        c.state.departures (c.state.handlesOf session) lost⟩ ∧
    ((c.state.handlesOf session).Pairwise (· < ·) ∧ ∀ h, h ∈ c.state.handlesOf session ↔
      ∃ r, c.state.handles.get? h = some r ∧ r.session = session) ∧
    (c.state.tree.nodes.keys.Pairwise (· < ·) ∧ ∀ id, ∀ w ∈ c.state.promoted s' id,
      w.session ≠ session ∧
        ∃ r, c.state.handles.get? w.handle = some r ∧ r.session = w.session ∧ r.node = id) ∧
    c.state.Shares (c.state.handlesOf session) lost s' := by
  have sound := reached.sound
  obtain ⟨linked, tidy⟩ := sound.marked session
  obtain ⟨lost, shares, outbox⟩ := linked.outbox_teardown tidy rfl
  have own := State.handlesOf_congr (c.state.sameOwners_marked session) session
  have released : (c.state.marked session).releases session = c.state.releases session := by
    rw [State.releases, own]
    rfl
  rw [own] at shares outbox
  rw [released] at outbox
  have nothing : (c.state.marked session).outbox = [] := reached.outbox_eq_nil
  rw [nothing, List.nil_append] at outbox
  have performed : c.perform now (.destroySession session) = _ :=
    perform_of_ok reached.serves.1 reached.serves.2 (Op.run_destroySession sound live)
  refine ⟨_, lost, performed.trans (congrArg _ outbox), ⟨c.state.ascending_handlesOf session, ?_⟩,
    ⟨FinMap.keys_ascending, fun id w served => sound.promoted_destroyed served⟩,
    shares.congr rfl rfl rfl⟩
  exact fun h => sound.linked.mem_handlesOf

/-- A client owns a directory that is empty and a file whose lock it holds; another client waits for
that lock and watches the root. -/
def bequest : List Call :=
  [.createSession, .createSession,
    .openHandle ⟨1⟩ "/d" (.union .create (.union .directory .ephemeral)) .all (.process "a"),
    .openHandle ⟨2⟩ "/" .none .all (.process "b"), .openHandle ⟨1⟩ "/f" .create .all (.process "a"),
    .openHandle ⟨2⟩ "/f" .none .all (.process "b"), .lock ⟨1⟩ ⟨3⟩ .exclusive,
    .lock ⟨2⟩ ⟨4⟩ .shared]

/-- The first session ends and bequeaths a lock; all it hands over is as described. -/
theorem farewell_in_order_bequest : (after bequest).state.Live ⟨1⟩ ∧
    ∃ (s' : State) (lost : HandleId → List NodeId),
      (after bequest).perform 0 (.destroySession ⟨1⟩) =
        ⟨.ok .done, { after bequest with state := s' },
          (after bequest).state.releases ⟨1⟩ ++ (after bequest).state.promotions s' ++
            (after bequest).state.departures [⟨1⟩, ⟨3⟩] lost⟩ ∧
      (after bequest).state.Shares [⟨1⟩, ⟨3⟩] lost s' := by
  have reached : (after bequest).Reachable Fault.refusals := reachable_after _
  have live : (after bequest).state.Live ⟨1⟩ := by
    have alive : ((after bequest).state.sessions.get? ⟨1⟩).any Session.isLive = true := by
      decide +kernel
    exact (Option.any_eq_true _ _).mp alive
  have own : (after bequest).state.handlesOf ⟨1⟩ = [⟨1⟩, ⟨3⟩] := by decide +kernel
  obtain ⟨s', lost, performed, -, -, shares⟩ := reached.farewell_in_order 0 live
  rw [own] at performed shares
  exact ⟨live, s', lost, performed, shares⟩

example : ((after bequest).perform 0 (.destroySession ⟨1⟩)).commands =
    [.deliver ⟨⟨3⟩, ⟨3⟩, .lockReleased⟩ (.process "a"),
      .deliver ⟨⟨4⟩, ⟨3⟩, .lockAcquired⟩ (.process "b"), .retire ⟨1⟩,
      .deliver ⟨⟨2⟩, ⟨1⟩, .childRemoved "d"⟩ (.process "b"), .retire ⟨3⟩] := by
  decide +kernel

end Coordinator

end Coordination
