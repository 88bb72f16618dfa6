import Coordination.Proofs.Coordinator.Locks
import Coordination.Proofs.Coordinator.Nodes

/-!
# The end of sessions

`Ends` says what the end of a set of sessions does to the tables. What it does to a lock is said
through the order of its requests: those of the sessions are struck out. The end of one session is
a relay of three stages, each with a relation of its own, and the ends of several add up.
-/

namespace Coordination.State

variable {s s' s₁ s₂ s₃ : State} {id : SessionId} {handle : HandleId} {node : NodeId}
variable {dying ended ended' : Set SessionId} {loose : Set NodeId} {list : List HandleId}

open Classical in
/-- Sessions have ended with their handles and their requests for locks, and nodes have gone that
are ephemeral. -/
structure Ends (ended : Set SessionId) (s s' : State) : Prop where
  store : s'.store = s.store
  next_handle : s'.handles.next = s.handles.next
  session : ∀ i, (s'.sessions.get? i).isSome ↔ (s.sessions.get? i).isSome ∧ i ∉ ended
  state : ∀ i x x', s.sessions.get? i = some x → s'.sessions.get? i = some x' → x'.state = x.state
  handle : ∀ h r, s'.handles.get? h = some r ↔ s.handles.get? h = some r ∧ r.session ∉ ended
  node : ∀ i n, s.tree.get? i = some n → (s'.tree.get? i = none ∧ n.ephemeral = true) ∨
    ∃ n', s'.tree.get? i = some n' ∧ n'.path = n.path ∧ n'.isDir = n.isDir ∧
      n'.ephemeral = n.ephemeral ∧ n'.attrs = n.attrs
  old_node : ∀ i n', s'.tree.get? i = some n' → ∃ n, s.tree.get? i = some n
  requests : ∀ i n', s'.tree.get? i = some n' →
    (s'.locks.lock i).requests = (s.locks.lock i).requests.filter (·.session ∉ ended)

/-- No session has ended. -/
lemma Ends.refl (s : State) : s.Ends ∅ s where
  store := rfl
  next_handle := rfl
  session := fun _ => by simp
  state := fun _ x x' found found' => by rw [Option.some.inj (found.symm.trans found')]
  handle := fun _ _ => by simp
  node := fun _ n found => .inr ⟨n, found, rfl, rfl, rfl, rfl⟩
  old_node := fun _ n' found => ⟨n', found⟩
  requests := fun _ _ _ => by simp

/-- Sessions that ended earlier and sessions that ended later. -/
lemma Ends.trans (e : s₁.Ends ended s₂) (e' : s₂.Ends ended' s₃) :
    s₁.Ends (ended ∪ ended') s₃ where
  store := e'.store.trans e.store
  next_handle := e'.next_handle.trans e.next_handle
  session := by
    intro i
    rw [e'.session, e.session, Set.mem_union]
    tauto
  state := by
    intro i x x' found found'
    have between : (s₂.sessions.get? i).isSome = true := by
      have := (e'.session i).mp (Option.isSome_iff_exists.mpr ⟨x', found'⟩)
      exact this.1
    obtain ⟨x₂, found₂⟩ := Option.isSome_iff_exists.mp between
    exact (e'.state i x₂ x' found₂ found').trans (e.state i x x₂ found found₂)
  handle := by
    intro h r
    rw [e'.handle, e.handle, Set.mem_union]
    tauto
  node := by
    intro i n found
    rcases e.node i n found with ⟨gone, eph⟩ | ⟨n₂, found₂, path₂, dir₂, eph₂, attrs₂⟩
    · refine .inl ⟨?_, eph⟩
      cases found' : s₃.tree.get? i with
      | none => rfl
      | some n₃ =>
        obtain ⟨n₂, found₂⟩ := e'.old_node i n₃ found'
        rw [gone] at found₂
        cases found₂
    · rcases e'.node i n₂ found₂ with ⟨gone, eph⟩ | ⟨n₃, found₃, path₃, dir₃, eph₃, attrs₃⟩
      · exact .inl ⟨gone, eph₂ ▸ eph⟩
      · exact .inr ⟨n₃, found₃, path₃.trans path₂, dir₃.trans dir₂, eph₃.trans eph₂,
          attrs₃.trans attrs₂⟩
  old_node := by
    intro i n₃ found₃
    obtain ⟨n₂, found₂⟩ := e'.old_node i n₃ found₃
    exact e.old_node i n₂ found₂
  requests := by
    intro i n₃ found₃
    obtain ⟨n₂, found₂⟩ := e'.old_node i n₃ found₃
    rw [e'.requests i n₃ found₃, e.requests i n₂ found₂, List.filter_filter]
    refine List.filter_congr fun w _ => Bool.eq_iff_iff.mpr ?_
    simp only [Bool.and_eq_true, decide_eq_true_eq, Set.mem_union]
    tauto

open Classical in
/-- A node that is gone has taken with it no request but those of the sessions. -/
lemma Ends.requests_eq (ends : s.Ends ended s') (linked : s.Linked) (linked' : s'.Linked)
    (node : NodeId) : (s'.locks.lock node).requests =
      (s.locks.lock node).requests.filter (·.session ∉ ended) := by
  cases found' : s'.tree.get? node with
  | some n' => exact ends.requests node n' found'
  | none =>
    have free : s'.locks.lock node = .free := by
      cases entry : s'.locks.get? node with
      | none => exact LockTable.lock_of_none entry
      | some l =>
        obtain ⟨n', found⟩ := linked'.node_of_lock node l entry
        rw [found'] at found
        cases found
    -- the handle of any other request would still be open on the node
    refine (congrArg LockState.requests free).trans (List.filter_eq_nil_iff.mpr fun w mem => ?_).symm
    obtain ⟨r, found, owner, rfl⟩ := linked.handle_of_request node w mem
    rw [decide_eq_true_eq]
    intro stays
    obtain ⟨n', foundN', -⟩ :=
      linked'.node_of_handle w.handle r ((ends.handle _ _).mpr ⟨found, owner ▸ stays⟩)
    rw [found'] at foundN'
    cases foundN'

/-! ## Handles give up their locks -/

/-- Handles have left the locks of their nodes. -/
structure Yields (list : List HandleId) (s s' : State) : Prop where
  tree : s'.tree = s.tree
  sessions : s'.sessions = s.sessions
  handles : s'.handles = s.handles
  store : s'.store = s.store
  requests : ∀ k, (s'.locks.lock k).requests =
    (s.locks.lock k).requests.filter (·.handle ∉ list)

/-- Handles that left their locks earlier and later. -/
lemma Yields.trans {list' : List HandleId} (y : s₁.Yields list s₂) (y' : s₂.Yields list' s₃) :
    s₁.Yields (list ++ list') s₃ where
  tree := y'.tree.trans y.tree
  sessions := y'.sessions.trans y.sessions
  handles := y'.handles.trans y.handles
  store := y'.store.trans y.store
  requests := by
    intro k
    rw [y'.requests, y.requests, List.filter_filter]
    refine List.filter_congr fun w _ => Bool.eq_iff_iff.mpr ?_
    simp only [Bool.and_eq_true, decide_eq_true_eq, List.mem_append]
    tauto

/-- A handle that is told that it lost its lock. -/
lemma sameTables_yield {r : Handle} (found : s.handles.get? handle = some r) :
    (s.strip r.node handle).SameTables (s.yield handle) := by
  rw [yield_of_get? found]
  split
  · exact sameTables_tell ..
  · exact .refl _

/-- A handle leaves the one lock it can be involved in. -/
lemma Linked.requests_strip (linked : s.Linked) {r : Handle}
    (found : s.handles.get? handle = some r) (k : NodeId) :
    ((s.strip r.node handle).locks.lock k).requests =
      (s.locks.lock k).requests.filter (·.handle ≠ handle) := by
  rw [State.strip, LockTable.lock_strip]
  split
  case isTrue eq =>
    rw [LockState.requests_without, eq]
    refine List.filter_congr fun w _ => by simp
  case isFalse other =>
    -- requests for another lock are made through other handles
    refine (List.filter_eq_self.mpr fun w mem => ?_).symm
    rw [decide_eq_true_eq]
    rintro rfl
    exact other (linked.origin_of_request found mem).2.symm

/-- One handle leaves the lock of its node. -/
lemma Linked.yields (linked : s.Linked) {r : Handle} (found : s.handles.get? handle = some r) :
    s.Yields [handle] (s.yield handle) := by
  have same := sameTables_yield found
  refine ⟨same.tree, same.sessions, same.handles, same.store, fun k => ?_⟩
  rw [same.locks, linked.requests_strip found]
  refine List.filter_congr fun w _ => by simp

/-- The tables stay linked when a handle leaves the lock of its node. -/
lemma Linked.yield (linked : s.Linked) {r : Handle} (found : s.handles.get? handle = some r) :
    (s.yield handle).Linked :=
  (linked.strip r.node handle).of_sameTables (sameTables_yield found)

/-- A lock whose handle has left is to be served if the handle was involved in it. -/
lemma Tidy.yield {touched : FinSet NodeId} (tidy : s.Tidy dying {k | k ∈ touched})
    (linked : s.Linked) {r : Handle} (found : s.handles.get? handle = some r)
    (ends : r.session ∈ dying) :
    (s.yield handle).Tidy dying {k | k ∈ (s.stake? handle).elim touched touched.add} := by
  refine Tidy.of_sameTables ?_ (sameTables_yield found)
  rw [stake?_of_get? found]
  split
  case isTrue =>
    have nodes : {k | k ∈ touched.add r.node} = insert r.node {k | k ∈ touched} := by
      ext k
      exact FinSet.mem_add
    rw [Option.elim_some, nodes]
    refine tidy.strip fun i mem => ?_
    obtain ⟨rfl, -⟩ := linked.origin_of_holder found mem
    exact ends
  case isFalse idle =>
    rw [State.strip, linked.consistent.strip_eq_self (Bool.eq_false_iff.mpr idle)]
    exact tidy

/-- Handles of sessions that end give up their locks; those are then to be served. -/
lemma Linked.surrendered (linked : s.Linked) {touched : FinSet NodeId}
    (tidy : s.Tidy dying {k | k ∈ touched})
    (own : ∀ h ∈ list, ∃ r, s.handles.get? h = some r ∧ r.session ∈ dying) :
    (s.surrendered touched list).2.Linked ∧
      (s.surrendered touched list).2.Tidy dying {k | k ∈ (s.surrendered touched list).1} ∧
        s.Yields list (s.surrendered touched list).2 := by
  induction list generalizing s touched with
  | nil => exact ⟨linked, tidy, rfl, rfl, rfl, rfl, fun k => by simp [State.surrendered]⟩
  | cons h rest ih =>
    obtain ⟨r, found, ends⟩ := own h (List.mem_cons_self ..)
    have first := linked.yields found
    have others : ∀ h' ∈ rest, ∃ r, (s.yield h).handles.get? h' = some r ∧ r.session ∈ dying := by
      intro h' mem
      rw [first.handles]
      exact own h' (List.mem_cons_of_mem h mem)
    obtain ⟨linked', tidy', later⟩ := ih (linked.yield found) (tidy.yield linked found ends) others
    exact ⟨linked', tidy', first.trans later⟩

/-! ## Waiters are served -/

/-- Waiters have been served, which changes neither requests nor handles. -/
structure Serves (s s' : State) : Prop where
  tree : s'.tree = s.tree
  owners : SameOwners s.sessions s'.sessions
  state : ∀ i x x', s.sessions.get? i = some x → s'.sessions.get? i = some x' → x'.state = x.state
  handles : s'.handles = s.handles
  store : s'.store = s.store
  requests : ∀ k, (s'.locks.lock k).requests = (s.locks.lock k).requests

/-- Nobody has been served. -/
lemma Serves.refl (s : State) : s.Serves s where
  tree := rfl
  owners := .refl _
  state := fun _ x x' found found' => by rw [Option.some.inj (found.symm.trans found')]
  handles := rfl
  store := rfl
  requests := fun _ => rfl

/-- Waiters that were served earlier and later. -/
lemma Serves.trans (a : s₁.Serves s₂) (b : s₂.Serves s₃) : s₁.Serves s₃ where
  tree := b.tree.trans a.tree
  owners := a.owners.trans b.owners
  state := by
    intro i x x' found found'
    obtain ⟨x₂, found₂, -⟩ := a.owners.forward found
    exact (b.state i x₂ x' found₂ found').trans (a.state i x x₂ found found₂)
  handles := b.handles.trans a.handles
  store := b.store.trans a.store
  requests := fun k => (b.requests k).trans (a.requests k)

/-- Striking out notes serves nobody. -/
lemma serves_clearNotes (id : SessionId) : s.Serves (s.clearNotes id) where
  tree := rfl
  owners := .modify _ fun _ => rfl
  state := by
    intro i x x' found found'
    simp only [clearNotes, SessionTable.get?_modify, found] at found'
    split at found'
    case isTrue =>
      obtain rfl := Option.some.inj found'
      rfl
    case isFalse =>
      obtain rfl := Option.some.inj found'
      rfl
  handles := rfl
  store := rfl
  requests := fun _ => rfl

/-- The waiters of a node are served. -/
lemma Linked.serves (linked : s.Linked) (node : NodeId) : s.Serves (s.promote node) := by
  have same := s.sameTables_promote node
  refine ⟨same.tree, ?_, ?_, same.handles, same.store, fun k => ?_⟩
  · rw [same.sessions]
    exact SessionTable.sameOwners_noteAll
  · intro i x x' found found'
    rw [same.sessions] at found'
    exact SessionTable.state_noteAll found found'
  · have lock := LockTable.lock_promote s.locks node k
    rw [LockTable.promote_eq] at lock
    rw [same.locks, lock]
    split
    case isTrue eq => rw [(linked.consistent.lock node).promote.2, eq]
    case isFalse => rfl

/-- Nodes are served one after another. -/
lemma Linked.served (linked : s.Linked) (tidy : s.Tidy dying loose) (nodes : List NodeId) :
    (nodes.foldl State.promote s).Linked ∧ (nodes.foldl State.promote s).Tidy dying (loose \ {k | k ∈ nodes}) ∧
      s.Serves (nodes.foldl State.promote s) := by
  induction nodes generalizing s loose with
  | nil =>
    have all : loose \ {k | k ∈ ([] : List NodeId)} = loose := by simp
    rw [all]
    exact ⟨linked, tidy, .refl s⟩
  | cons k rest ih =>
    obtain ⟨linked', tidy', later⟩ := ih (linked.promote k) (tidy.promote k)
    have rest' : loose \ {j | j ∈ k :: rest} = (loose \ {k}) \ {j | j ∈ rest} := by
      ext j
      simp [not_or, and_assoc]
    rw [rest']
    exact ⟨linked', tidy', (linked.serves k).trans later⟩

/-! ## Handles end -/

/-- Open handles that are about to end and use no lock. -/
structure Leaving (list : List HandleId) (s : State) : Prop where
  linked : s.Linked
  settled : ∀ i, (s.locks.lock i).Settled
  apart : list.Nodup
  seated : ∀ h ∈ list, ∃ r, s.handles.get? h = some r
  idle : ∀ h ∈ list, ∀ i, ∀ w ∈ (s.locks.lock i).requests, w.handle ≠ h

/-- The first of them is not involved in the lock of its node. -/
lemma Leaving.head (leaving : s.Leaving (handle :: list)) : ∃ r, s.handles.get? handle = some r ∧
    (s.locks.lock r.node).involves handle = false := by
  obtain ⟨r, found⟩ := leaving.seated handle (List.mem_cons_self ..)
  refine ⟨r, found, ?_⟩
  rw [← Bool.not_eq_true, LockState.involves_iff]
  rintro ⟨w, mem, eq⟩
  exact leaving.idle handle (List.mem_cons_self ..) _ w mem eq

/-- When the first has ended, the others are still about to. -/
lemma Leaving.detach (leaving : s.Leaving (handle :: list)) : ∃ lost,
    s.Sheds {handle} lost (s.detach handle) ∧ s.Ephemeral lost ∧
      (s.detach handle).Leaving list := by
  obtain ⟨fresh, apart⟩ := List.nodup_cons.mp leaving.apart
  obtain ⟨r, found, uninvolved⟩ := leaving.head
  obtain ⟨lost, sheds, eph, linked⟩ := leaving.linked.detach leaving.settled found uninvolved
  refine ⟨lost, sheds, eph, linked, fun i => sheds.settled (leaving.settled i), apart, ?_, ?_⟩
  · intro h mem
    have other : h ∉ ({handle} : Set HandleId) := by
      rintro rfl
      exact fresh mem
    rw [sheds.closes.stays h other]
    exact leaving.seated h (List.mem_cons_of_mem _ mem)
  · intro h mem i w request
    exact leaving.idle h (List.mem_cons_of_mem _ mem) i w (sheds.request_of request).2

/-- The handles end one after another, and idle ephemeral nodes go. -/
lemma Leaving.detachAll (leaving : s.Leaving list) : ∃ lost,
    s.Sheds {h | h ∈ list} lost (list.foldl State.detach s) ∧ s.Ephemeral lost ∧
      (list.foldl State.detach s).Linked := by
  induction list generalizing s with
  | nil =>
    have none : {h : HandleId | h ∈ []} = ∅ := by simp
    rw [none]
    exact ⟨∅, .refl s, fun _ mem => absurd mem (Set.notMem_empty _), leaving.linked⟩
  | cons h rest ih =>
    obtain ⟨lost, first, eph, left⟩ := leaving.detach
    obtain ⟨lost', later, eph', linked⟩ := ih left
    have both : {h' | h' ∈ h :: rest} = {h} ∪ {h' | h' ∈ rest} := by
      ext h'
      simp
    rw [both]
    exact ⟨lost ∪ lost', first.trans later, eph.union first eph', linked⟩

/-! ## The session is forgotten -/

/-- A session without handles is forgotten. -/
lemma Linked.forget (linked : s.Linked)
    (alone : ∀ h r, s.handles.get? h = some r → r.session ≠ id) : (s.forget id).Linked := by
  have look : ∀ i, (s.forget id).sessions.get? i = if i = id then none else s.sessions.get? i :=
    SessionTable.get?_remove
  refine { linked with session_of_handle := ?_, handle_of_session := ?_, fresh_session := ?_ }
  · intro h r found
    obtain ⟨x, foundX, mem⟩ := linked.session_of_handle h r found
    exact ⟨x, (look _).trans ((if_neg (alone h r found)).trans foundX), mem⟩
  · intro i x h foundX mem
    rw [look] at foundX
    split at foundX
    case isTrue => cases foundX
    case isFalse => exact linked.handle_of_session i x h foundX mem
  · intro i x foundX
    rw [look] at foundX
    split at foundX
    case isTrue => cases foundX
    case isFalse => exact linked.fresh_session i x foundX

/-- A session whose handles have ended may be forgotten. -/
lemma Tidy.forget (tidy : s.Tidy dying loose) (id : SessionId) :
    (s.forget id).Tidy (dying \ {id}) loose := by
  have kept : ∀ i x, (s.forget id).sessions.get? i = some x →
      i ∉ dying \ {id} → s.sessions.get? i = some x ∧ i ∉ dying := by
    intro i x found alive
    have look : (s.forget id).sessions.get? i = if i = id then none else s.sessions.get? i :=
      SessionTable.get?_remove i
    rw [look] at found
    split at found
    case isTrue => cases found
    case isFalse other => exact ⟨found, fun mem => alive ⟨mem, other⟩⟩
  refine ⟨?_, tidy.settled, ?_⟩
  · intro i x found alive
    obtain ⟨found, alive⟩ := kept i x found alive
    exact tidy.live i x found alive
  · intro i x k h found alive
    obtain ⟨found, alive⟩ := kept i x found alive
    exact tidy.noted i x k h found alive

/-! ## The stages together -/

variable {x : Session}

/-- The handles of a session that is there. -/
lemma handlesOf_eq (found : s.sessions.get? id = some x) : s.handlesOf id = x.handles.keys := by
  rw [handlesOf, found]

/-- The handles of a session are those that are open in its name. -/
lemma Linked.mem_handlesOf (linked : s.Linked) {h : HandleId} :
    h ∈ s.handlesOf id ↔ ∃ r, s.handles.get? h = some r ∧ r.session = id := by
  cases found : s.sessions.get? id with
  | none =>
    have nobody : ¬ ∃ r, s.handles.get? h = some r ∧ r.session = id := by
      rintro ⟨r, foundR, rfl⟩
      obtain ⟨x, foundX, -⟩ := linked.session_of_handle h r foundR
      rw [found] at foundX
      cases foundX
    simp [handlesOf, found, nobody]
  | some x =>
    rw [handlesOf_eq found, FinMap.mem_keys]
    constructor
    · exact linked.handle_of_session id x h found
    · rintro ⟨r, foundR, owner⟩
      exact (linked.mem_session_iff foundR found).mpr owner

/-- A session that ends needs no notes about locks. -/
lemma Tidy.clearNotes (tidy : s.Tidy dying loose) (ends : id ∈ dying) :
    (s.clearNotes id).Tidy dying loose := by
  have kept : ∀ i x', (s.clearNotes id).sessions.get? i = some x' → i ∉ dying →
      s.sessions.get? i = some x' := by
    intro i x' found alive
    rw [State.clearNotes, SessionTable.get?_modify, if_neg] at found
    · exact found
    · rintro rfl
      exact alive ends
  refine ⟨?_, tidy.settled, ?_⟩
  · intro i x' found alive
    exact tidy.live i x' (kept i x' found alive) alive
  · intro i x' k h found alive
    exact tidy.noted i x' k h (kept i x' found alive) alive

/-- The handles of a session are open. -/
lemma Linked.seated_handlesOf (linked : s.Linked) :
    ∀ h ∈ s.handlesOf id, ∃ r, s.handles.get? h = some r :=
  fun _ mem => (linked.mem_handlesOf.mp mem).imp fun _ => And.left

/-- The handles of a session that ends give up their locks. -/
lemma Linked.surrenders (linked : s.Linked) (tidy : s.Tidy dying ∅) (ends : id ∈ dying) :
    (s.surrendered .empty (s.handlesOf id)).2.Linked ∧
      (s.surrendered .empty (s.handlesOf id)).2.Tidy dying
        {k | k ∈ (s.surrendered .empty (s.handlesOf id)).1} ∧
      s.Yields (s.handlesOf id) (s.surrendered .empty (s.handlesOf id)).2 := by
  have start : {k | k ∈ (.empty : FinSet NodeId)} = (∅ : Set NodeId) := by
    ext k
    simp
  refine linked.surrendered (start ▸ tidy) fun h mem => ?_
  obtain ⟨r, found, rfl⟩ := linked.mem_handlesOf.mp mem
  exact ⟨r, found, ends⟩

/-- The handles of a session that ends have left their locks in favour of the waiters. -/
lemma Linked.relieved (linked : s.Linked) (tidy : s.Tidy dying ∅) (ends : id ∈ dying) :
    (s.relieved id).Tidy dying ∅ ∧ (s.relieved id).Leaving (s.handlesOf id) ∧
      SameOwners s.sessions (s.relieved id).sessions ∧
      (∀ i x x', s.sessions.get? i = some x → (s.relieved id).sessions.get? i = some x' →
        x'.state = x.state) ∧
      (s.relieved id).tree = s.tree ∧ (s.relieved id).handles = s.handles ∧
      (s.relieved id).store = s.store ∧
      ∀ k, ((s.relieved id).locks.lock k).requests =
        (s.locks.lock k).requests.filter (·.session ≠ id) := by
  obtain ⟨linked₁, tidy₁, yields⟩ := linked.surrenders tidy ends
  obtain ⟨linked₂, tidy₂, serves⟩ := (linked₁.clearNotes id).served (tidy₁.clearNotes ends)
    (s.surrendered .empty (s.handlesOf id)).1.keys
  have serves := (serves_clearNotes id).trans serves
  have done : ({k | k ∈ (s.surrendered .empty (s.handlesOf id)).1} \
      {k | k ∈ (s.surrendered .empty (s.handlesOf id)).1.keys} : Set NodeId) = ∅ := by
    ext k
    simp [FinMap.mem_keys]
  rw [done] at tidy₂
  -- whoever asks in the name of the session does so through one of its handles
  have requests : ∀ k, ((s.relieved id).locks.lock k).requests =
      (s.locks.lock k).requests.filter (·.session ≠ id) := by
    intro k
    rw [State.relieved, serves.requests, yields.requests]
    refine List.filter_congr fun w mem => Bool.eq_iff_iff.mpr ?_
    obtain ⟨r, found, owner, -⟩ := linked.handle_of_request k w mem
    simp only [decide_eq_true_eq, linked.mem_handlesOf, found, Option.some.injEq, exists_eq_left',
      owner, ne_eq]
  have handles : (s.relieved id).handles = s.handles := serves.handles.trans yields.handles
  refine ⟨tidy₂, ⟨linked₂, fun i => tidy₂.settled i (Set.notMem_empty _), ?_, ?_, ?_⟩, ?_, ?_,
    serves.tree.trans yields.tree, handles, serves.store.trans yields.store, requests⟩
  · unfold handlesOf
    split
    · exact List.nodup_nil
    · exact FinMap.keys_nodup
  · intro h mem
    obtain ⟨r, found, -⟩ := linked.mem_handlesOf.mp mem
    exact ⟨r, handles ▸ found⟩
  · intro h mem i w request eq
    rw [requests] at request
    obtain ⟨asked, other⟩ := List.mem_filter.mp request
    obtain ⟨r, found, owner⟩ := linked.mem_handlesOf.mp mem
    have origin := linked.origin_of_request (eq ▸ found) asked
    simp [← origin.1, owner] at other
  · rw [← yields.sessions]
    exact serves.owners
  · intro i x x' found found'
    exact serves.state i x x' (yields.sessions ▸ found) found'

/-- The end of one session. -/
lemma Linked.teardown (linked : s.Linked) (tidy : s.Tidy dying ∅) (ends : id ∈ dying) :
    (s.teardown id).Linked ∧ (s.teardown id).Tidy (dying \ {id}) ∅ ∧
      s.Ends {id} (s.teardown id) := by
  obtain ⟨tidy₁, leaving, owners, state, tree, handles, store, requests⟩ :=
    linked.relieved tidy ends
  obtain ⟨lost, sheds, eph, linked₂⟩ := leaving.detachAll
  have tidy₂ := tidy₁.sheds sheds
  have sessions : ∀ i, (s.teardown id).sessions.get? i = if i = id then none else
      ((s.handlesOf id).foldl State.detach (s.relieved id)).sessions.get? i :=
    SessionTable.get?_remove
  have handle : ∀ h r, (s.teardown id).handles.get? h = some r ↔
      s.handles.get? h = some r ∧ r.session ∉ ({id} : Set SessionId) := by
    intro h r
    constructor
    · intro found'
      obtain ⟨out, found⟩ := sheds.closes.handle_of found'
      rw [handles] at found
      refine ⟨found, fun own => out (linked.mem_handlesOf.mpr ⟨r, found, own⟩)⟩
    · rintro ⟨found, other⟩
      refine (sheds.closes.stays h fun mem => ?_).trans (handles ▸ found)
      obtain ⟨r', found', own⟩ := linked.mem_handlesOf.mp mem
      obtain rfl : r = r' := Option.some.inj (found.symm.trans found')
      exact other own
  -- no handle is left that is open in the name of the session, so it can be forgotten
  refine ⟨linked₂.forget fun h r found => ((handle h r).mp found).2, tidy₂.forget id, ?_⟩
  have next : (s.teardown id).handles.next = s.handles.next :=
    sheds.closes.next_handle.trans (congrArg HandleTable.next handles)
  refine ⟨sheds.store.trans store, next, ?_, ?_, handle, ?_, ?_, ?_⟩
  · intro i
    rw [sessions, Set.mem_singleton_iff]
    split
    case isTrue eq => simp [eq]
    case isFalse other =>
      rw [and_iff_left other, Option.isSome_iff_exists, Option.isSome_iff_exists]
      constructor
      · rintro ⟨x', found'⟩
        obtain ⟨x₁, found₁⟩ := sheds.closes.old_session i x' found'
        obtain ⟨x, found, -⟩ := owners.backward found₁
        exact ⟨x, found⟩
      · rintro ⟨x, found⟩
        obtain ⟨x₁, found₁, -⟩ := owners.forward found
        obtain ⟨x', found', -⟩ := sheds.closes.session i x₁ found₁
        exact ⟨x', found'⟩
  · intro i x x' found found'
    rw [sessions] at found'
    split at found'
    case isTrue => cases found'
    case isFalse =>
      obtain ⟨x₁, found₁, -, same, -⟩ := sheds.closes.session_of found'
      exact same.trans (state i x x₁ found found₁)
  · intro i n found
    rw [← tree] at found
    exact sheds.node_or eph found
  · intro i n' found'
    rw [← tree]
    exact sheds.old_node i n' found'
  · intro i n' found'
    have stays : i ∉ lost := (sheds.node_of found').1
    have same : ((s.teardown id).locks.lock i) = ((s.relieved id).locks.lock i) :=
      sheds.lock_eq stays
    rw [same, requests]
    refine List.filter_congr fun w _ => Bool.eq_iff_iff.mpr ?_
    simp

end Coordination.State
