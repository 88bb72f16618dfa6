import Coordination.Proofs.Coordinator.Stages
import Coordination.Proofs.Lease.Table

/-!
# The invariant of the tables

`Linked` holds after every stage of an operation: the tree is well formed, handles are known to
their session and their node and to no other, and whoever holds a lock or waits for one does so
through an open handle on its node. `Tidy` holds between operations, and its parameters say what a
stage may leave to be done: sessions that are about to end, and locks whose waiters are still to be
served.
-/

namespace Coordination

namespace State

/-- The tables refer to each other consistently. -/
structure Linked (s : State) : Prop where
  tree : s.tree.WellFormed
  session_of_handle : ∀ h r, s.handles.get? h = some r →
    ∃ x, s.sessions.get? r.session = some x ∧ h ∈ x.handles
  node_of_handle : ∀ h r, s.handles.get? h = some r →
    ∃ n, s.tree.get? r.node = some n ∧ h ∈ n.handles
  handle_of_session : ∀ id x h, s.sessions.get? id = some x → h ∈ x.handles →
    ∃ r, s.handles.get? h = some r ∧ r.session = id
  handle_of_node : ∀ id n h, s.tree.get? id = some n → h ∈ n.handles →
    ∃ r, s.handles.get? h = some r ∧ r.node = id
  node_of_lock : ∀ id l, s.locks.get? id = some l → ∃ n, s.tree.get? id = some n
  handle_of_request : ∀ id w, w ∈ (s.locks.lock id).requests →
    ∃ r, s.handles.get? w.handle = some r ∧ r.session = w.session ∧ r.node = id
  consistent : s.locks.Consistent
  fresh_handle : ∀ h r, s.handles.get? h = some r → h < s.handles.next
  fresh_session : ∀ id x, s.sessions.get? id = some x → id < s.sessions.next

/-- What an operation tidies up before it ends, but for sessions that end and locks that are still
to be served. -/
structure Tidy (s : State) (dying : Set SessionId) (loose : Set NodeId) : Prop where
  live : ∀ id x, s.sessions.get? id = some x → id ∉ dying → x.isLive = true
  settled : ∀ id, id ∉ loose → (s.locks.lock id).Settled
  noted : ∀ id x node h, s.sessions.get? id = some x → id ∉ dying →
    (⟨node, h⟩ ∈ x.locks ↔ ⟨id, h⟩ ∈ (s.locks.lock node).holders)

/-- The tables between two operations. -/
structure Sound (s : State) : Prop where
  linked : s.Linked
  tidy : s.Tidy ∅ ∅

variable {s s' : State} {id above node : NodeId} {handle : HandleId} {session : SessionId}
variable {dying : Set SessionId} {loose : Set NodeId}

/-- Announcements keep the tables linked. -/
lemma Linked.of_sameTables (linked : s.Linked) (same : s.SameTables s') : s'.Linked := by
  cases s
  cases s'
  obtain ⟨rfl, rfl, rfl, rfl, rfl⟩ := same
  exact ⟨linked.1, linked.2, linked.3, linked.4, linked.5, linked.6, linked.7, linked.8, linked.9,
    linked.10⟩

/-- A holder has an open handle on the node. -/
lemma Linked.handle_of_holder (linked : s.Linked)
    (mem : ⟨session, handle⟩ ∈ (s.locks.lock node).holders) :
    ∃ r, s.handles.get? handle = some r ∧ r.session = session ∧ r.node = node :=
  linked.handle_of_request node _ (LockState.request_mem_requests mem)

/-- A session knows an open handle if and only if it is open in its name. -/
lemma Linked.mem_session_iff (linked : s.Linked) {r : Handle} {x : Session}
    (found : s.handles.get? handle = some r) (owner : s.sessions.get? session = some x) :
    handle ∈ x.handles ↔ r.session = session := by
  constructor
  · intro mem
    obtain ⟨r', found', eq⟩ := linked.handle_of_session session x handle owner mem
    rwa [Option.some.inj (found.symm.trans found')]
  · rintro rfl
    obtain ⟨x', owner', mem⟩ := linked.session_of_handle handle r found
    rwa [Option.some.inj (owner.symm.trans owner')]

/-- A node knows an open handle if and only if it is open on it. -/
lemma Linked.mem_node_iff (linked : s.Linked) {r : Handle} {n : Node}
    (found : s.handles.get? handle = some r) (seat : s.tree.get? node = some n) :
    handle ∈ n.handles ↔ r.node = node := by
  constructor
  · intro mem
    obtain ⟨r', found', eq⟩ := linked.handle_of_node node n handle seat mem
    rwa [Option.some.inj (found.symm.trans found')]
  · rintro rfl
    obtain ⟨n', seat', mem⟩ := linked.node_of_handle handle r found
    rwa [Option.some.inj (seat.symm.trans seat')]

/-- A request is made in the name of the session of its handle, on the node of its handle. -/
lemma Linked.origin_of_request (linked : s.Linked) {r : Handle} {w : Waiter}
    (found : s.handles.get? w.handle = some r) (mem : w ∈ (s.locks.lock node).requests) :
    r.session = w.session ∧ r.node = node := by
  obtain ⟨r', found', origin⟩ := linked.handle_of_request node w mem
  rwa [Option.some.inj (found.symm.trans found')]

/-- So is a lock held. -/
lemma Linked.origin_of_holder (linked : s.Linked) {r : Handle}
    (found : s.handles.get? handle = some r)
    (mem : ⟨session, handle⟩ ∈ (s.locks.lock node).holders) :
    r.session = session ∧ r.node = node := by
  have asked := LockState.request_mem_requests mem
  exact linked.origin_of_request (w := ⟨session, handle, _⟩) found asked

/-- Announcements keep the tables tidy. -/
lemma Tidy.of_sameTables (tidy : s.Tidy dying loose) (same : s.SameTables s') :
    s'.Tidy dying loose := by
  cases s
  cases s'
  obtain ⟨rfl, rfl, rfl, rfl, rfl⟩ := same
  exact ⟨tidy.1, tidy.2, tidy.3⟩

/-! ## Changes to sessions -/

/-- Sessions that differ at most in their state, their last contact and their notes. -/
structure SameOwners (t t' : SessionTable) : Prop where
  next : t'.next = t.next
  handles : ∀ id, (t'.get? id).map Session.handles = (t.get? id).map Session.handles

/-- A session may change while its handles stay. -/
lemma SameOwners.modify (t : SessionTable) {f : Session → Session}
    (keeps : ∀ x, (f x).handles = x.handles) : SameOwners t (t.modify session f) := by
  refine ⟨rfl, fun id => ?_⟩
  rw [SessionTable.get?_modify]
  split
  case isTrue =>
    cases t.get? id with
    | none => rfl
    | some x => exact congrArg some (keeps x)
  case isFalse => rfl

/-- Nothing has changed. -/
lemma SameOwners.refl (t : SessionTable) : SameOwners t t := ⟨rfl, fun _ => rfl⟩

/-- Sessions may change twice. -/
lemma SameOwners.trans {t₁ t₂ t₃ : SessionTable} (h : SameOwners t₁ t₂) (h' : SameOwners t₂ t₃) :
    SameOwners t₁ t₃ :=
  ⟨h'.next.trans h.next, fun id => (h'.handles id).trans (h.handles id)⟩

/-- A session that was there is there with its handles. -/
lemma SameOwners.forward {t t' : SessionTable} (same : SameOwners t t') {id : SessionId} {x : Session}
    (found : t.get? id = some x) : ∃ x', t'.get? id = some x' ∧ x'.handles = x.handles := by
  have eq := same.handles id
  rw [found, Option.map_some] at eq
  exact Option.map_eq_some_iff.mp eq

/-- A session that is there was there with its handles. -/
lemma SameOwners.backward {t t' : SessionTable} (same : SameOwners t t') {id : SessionId}
    {x' : Session} (found : t'.get? id = some x') : ∃ x, t.get? id = some x ∧ x'.handles = x.handles := by
  have eq := same.handles id
  rw [found, Option.map_some] at eq
  obtain ⟨x, foundX, handles⟩ := Option.map_eq_some_iff.mp eq.symm
  exact ⟨x, foundX, handles.symm⟩

/-- What sessions know besides their handles does not matter to the links. -/
lemma Linked.with_sessions (linked : s.Linked) {sessions : SessionTable}
    (same : SameOwners s.sessions sessions) : { s with sessions }.Linked where
  tree := linked.tree
  session_of_handle := by
    intro h r found
    obtain ⟨x, foundX, mem⟩ := linked.session_of_handle h r found
    obtain ⟨x', foundX', handles⟩ := same.forward foundX
    exact ⟨x', foundX', handles ▸ mem⟩
  node_of_handle := linked.node_of_handle
  handle_of_session := by
    intro id x' h found' mem
    obtain ⟨x, found, handles⟩ := same.backward found'
    exact linked.handle_of_session id x h found (handles ▸ mem)
  handle_of_node := linked.handle_of_node
  node_of_lock := linked.node_of_lock
  handle_of_request := linked.handle_of_request
  consistent := linked.consistent
  fresh_handle := linked.fresh_handle
  fresh_session := by
    intro id x' found'
    obtain ⟨x, found, -⟩ := same.backward found'
    exact same.next ▸ linked.fresh_session id x found

/-- A contact keeps the tables linked. -/
lemma Linked.contacted (linked : s.Linked) (id : SessionId) (now : Instant) :
    (s.contacted id now).Linked :=
  linked.with_sessions (.modify _ fun _ => rfl)

/-- Striking out notes keeps the tables linked. -/
lemma Linked.clearNotes (linked : s.Linked) (id : SessionId) : (s.clearNotes id).Linked :=
  linked.with_sessions (.modify _ fun _ => rfl)

/-- A contact keeps the tables tidy. -/
lemma Tidy.contacted (tidy : s.Tidy dying loose) (id : SessionId) (now : Instant) :
    (s.contacted id now).Tidy dying loose := by
  have kept : ∀ i x', (s.contacted id now).sessions.get? i = some x' →
      ∃ x, s.sessions.get? i = some x ∧ x'.locks = x.locks ∧ x'.isLive = x.isLive := by
    intro i x' found
    obtain ⟨x, foundX, rfl⟩ := FinMap.get?_modify_eq_some.mp found
    refine ⟨x, foundX, ?_⟩
    split
    case isTrue =>
      refine ⟨rfl, ?_⟩
      cases state : x.state <;> simp [Session.contact, Session.reconnect, Session.isLive, state]
    case isFalse => exact ⟨rfl, rfl⟩
  refine ⟨?_, tidy.settled, ?_⟩
  · intro i x' found alive
    obtain ⟨x, foundX, -, live⟩ := kept i x' found
    rw [live]
    exact tidy.live i x foundX alive
  · intro i x' node h found alive
    obtain ⟨x, foundX, locks, -⟩ := kept i x' found
    rw [locks]
    exact tidy.noted i x node h foundX alive

/-- A contact keeps the tables sound. -/
lemma Sound.contacted (sound : s.Sound) (id : SessionId) (now : Instant) :
    (s.contacted id now).Sound :=
  ⟨sound.linked.contacted id now, sound.tidy.contacted id now⟩

end State

end Coordination
