import Coordination.Proofs.Coordinator.Runs

/-!
# What holds between two calls

Wherever a run leads, every lock obeys its discipline and nobody waits in vain; this holds whatever
the store does. If the store does no worse than refuse calls, the tables agree with each other, no
call finds a contradiction in them, and the coordinator never stops serving.
-/

namespace Coordination

namespace State

/-- The tables say the same of handles, sessions, nodes and locks. -/
structure Agrees (s : State) : Prop where
  /-- An open handle is known to its session and to its node, which both exist. -/
  handle : ∀ h r, s.handles.get? h = some r →
    (∃ x, s.sessions.get? r.session = some x ∧ h ∈ x.handles) ∧
      ∃ n, s.tree.get? r.node = some n ∧ h ∈ n.handles
  /-- A session knows the handles that are open in its name. -/
  session : ∀ i x h, s.sessions.get? i = some x →
    (h ∈ x.handles ↔ ∃ r, s.handles.get? h = some r ∧ r.session = i)
  /-- A node knows the handles that are open on it. -/
  node : ∀ i n h, s.tree.get? i = some n →
    (h ∈ n.handles ↔ ∃ r, s.handles.get? h = some r ∧ r.node = i)
  /-- Whoever holds the lock of a node has a handle open on it. -/
  holder : ∀ i x, x ∈ (s.locks.lock i).holders →
    ∃ r, s.handles.get? x.handle = some r ∧ r.session = x.session ∧ r.node = i
  /-- Whoever waits for the lock of a node has a handle open on it. -/
  waiter : ∀ i w, w ∈ (s.locks.lock i).waiters →
    ∃ r, s.handles.get? w.handle = some r ∧ r.session = w.session ∧ r.node = i
  /-- A session notes exactly the locks that are held in its name. -/
  noted : ∀ i x node h, s.sessions.get? i = some x →
    (⟨node, h⟩ ∈ x.locks ↔ ⟨i, h⟩ ∈ (s.locks.lock node).holders)
  /-- Locks belong to nodes that exist. -/
  lock : ∀ i l, s.locks.get? i = some l → ∃ n, s.tree.get? i = some n
  /-- A session that has expired is gone. -/
  live : ∀ i x, s.sessions.get? i = some x → x.state ≠ .expired

/-- Sound tables agree with each other. -/
lemma Sound.agrees {s : State} (sound : s.Sound) : s.Agrees := by
  obtain ⟨linked, tidy⟩ := sound
  constructor
  case handle =>
    intro h r found
    exact ⟨linked.session_of_handle h r found, linked.node_of_handle h r found⟩
  case session =>
    intro i x h foundX
    constructor
    · exact linked.handle_of_session i x h foundX
    · rintro ⟨r, found, owner⟩
      exact (linked.mem_session_iff found foundX).mpr owner
  case node =>
    intro i n h foundN
    constructor
    · exact linked.handle_of_node i n h foundN
    · rintro ⟨r, found, seat⟩
      exact (linked.mem_node_iff found foundN).mpr seat
  case holder => exact fun i x mem => linked.handle_of_holder mem
  case waiter =>
    intro i w mem
    exact linked.handle_of_request i w (List.mem_append_right _ mem)
  case noted => exact fun i x node h found => tidy.noted i x node h found (Set.notMem_empty i)
  case lock => exact linked.node_of_lock
  case live =>
    intro i x found
    simpa [Session.isLive] using tidy.live i x found (Set.notMem_empty i)

end State

namespace Coordinator

variable {allowed : Set Fault} {c : Coordinator} {fault : StoreCall → Option Fault}

/-- Between two calls, the mode of a lock says how many hold it, nobody takes part twice, and the
head of the queue is blocked by the holders. -/
theorem Reachable.lock_discipline (reached : c.Reachable allowed) {node : NodeId} {l : LockState}
    (entry : c.state.locks.get? node = some l) :
    (l.mode = .none ↔ l.holders = []) ∧
    (l.mode = .exclusive → l.holders.length = 1) ∧
    (l.mode = .shared → 1 ≤ l.holders.length) ∧
    (l.holders.map Holder.handle ++ l.waiters.map Waiter.handle).Nodup ∧
    ∀ w rest, l.waiters = w :: rest →
      l.mode = .exclusive ∨ l.mode = .shared ∧ w.mode = .exclusive := by
  obtain ⟨linked, tidy⟩ := reached.sound
  have consistent := linked.consistent node l entry
  have settled := tidy.settled node (Set.notMem_empty node)
  rw [LockTable.lock_of_get? entry] at settled
  refine ⟨consistent.free_iff, consistent.alone, ?_, consistent.unique, ?_⟩
  · intro shared
    exact List.length_pos_iff.mpr (consistent.holders_ne_nil shared)
  · intro w rest queue
    have mem : w ∈ l.waiters := by
      rw [queue]
      exact List.mem_cons_self ..
    exact (consistent.fits_eq_false_iff mem).mp (settled w rest queue)

/-- Two clients want the lock of one file; the second has to wait. -/
def contended : Coordinator :=
  after [.createSession, .createSession, .openHandle ⟨1⟩ "/f" .create .none (.process "a"),
    .openHandle ⟨2⟩ "/f" .create .none (.process "b"), .lock ⟨1⟩ ⟨1⟩ .exclusive,
    .lock ⟨2⟩ ⟨2⟩ .shared]

/-- The first client holds the lock exclusively, the second waits. -/
def contendedLock : LockState := ⟨.exclusive, [⟨⟨1⟩, ⟨1⟩⟩], [⟨⟨2⟩, ⟨2⟩, .shared⟩], 1⟩

/-- The lock is held exclusively, and its first waiter is blocked. -/
theorem lock_discipline_contended : contended.state.locks.get? ⟨2⟩ = some contendedLock ∧
    ∀ w rest, contendedLock.waiters = w :: rest →
      contendedLock.mode = .exclusive ∨ contendedLock.mode = .shared ∧ w.mode = .exclusive := by
  have entry : contended.state.locks.get? ⟨2⟩ = some contendedLock := by decide +kernel
  have reached : contended.Reachable ∅ := reachable_after _
  exact ⟨entry, (reached.lock_discipline entry).2.2.2.2⟩

/-! ## Nothing stops the coordinator -/

/-- A coordinator that serves and whose tables are usable. -/
def Serves (c : Coordinator) : Prop := c.halted = false ∧ c.poisoned = false

/-- Over a store that only refuses, a call on sound tables leaves the coordinator serving and finds
no contradiction. -/
lemma Serves.perform (serves : c.Serves) (sound : c.state.Sound)
    (may : ∀ kind f, c.state.store.fault kind = some f → f ∈ Fault.refusals) (now : Instant)
    (call : Call) : (c.perform now call).coordinator.Serves ∧
      ∀ detail, (c.perform now call).result ≠ .error (.refused (.corrupted detail)) := by
  obtain ⟨serving, usable⟩ := serves
  have meets := Op.meets_op sound now call
  unfold Op.Meets at meets
  split at meets
  case h_1 answer s' run =>
    rw [perform_of_ok serving usable run]
    exact ⟨⟨serving, usable⟩, fun _ eq => nomatch eq⟩
  case h_2 e s' run =>
    obtain ⟨why, rfl, harmless⟩ := meets.2.harmless may
    rw [perform_of_refused serving usable harmless run]
    refine ⟨⟨serving, usable⟩, ?_⟩
    rintro detail eq
    obtain rfl := Interruption.refused.inj (Except.error.inj eq)
    exact harmless ⟨detail, rfl⟩

/-- A coordinator whose store only refuses goes on serving. -/
lemma Reachable.serves (reached : c.Reachable Fault.refusals) : c.Serves := by
  induction reached with
  | new => exact ⟨rfl, rfl⟩
  | recover may recovered =>
    obtain ⟨tree, st, -, rfl⟩ := recover_eq_ok recovered
    exact ⟨rfl, rfl⟩
  | @perform c reached now call fault may ih =>
    have sound : (c.withFaults fault).state.Sound := reached.sound.withStore _
    have serves : (c.withFaults fault).Serves := ih
    exact (serves.perform sound may now call).1

/-- Over a store that only refuses, the tables agree wherever a run leads, and nothing stops the
coordinator: no call finds a contradiction, and the check of all locks succeeds. -/
theorem Reachable.tables_agree (reached : c.Reachable Fault.refusals) :
    c.state.Agrees ∧ c.halted = false ∧ c.poisoned = false ∧
    (∀ fault : StoreCall → Option Fault, (∀ kind f, fault kind = some f → f ∈ Fault.refusals) →
      ∀ now call detail,
        ((c.withFaults fault).perform now call).result ≠ .error (.refused (.corrupted detail))) ∧
    ∀ now, (c.perform now .checkLocks).result = .ok .done := by
  obtain ⟨serving, usable⟩ := reached.serves
  refine ⟨reached.sound.agrees, serving, usable, ?_, ?_⟩
  · intro fault may now call
    have sound : (c.withFaults fault).state.Sound := reached.sound.withStore _
    have serves : (c.withFaults fault).Serves := ⟨serving, usable⟩
    exact (serves.perform sound may now call).2
  · intro now
    have run := Op.run_checkLocks reached.sound now
    rw [perform_of_ok serving usable run]

/-- The tables agree, and the coordinator has not halted. -/
theorem tables_agree_contended : contended.state.Agrees ∧ contended.halted = false :=
  have reached : contended.Reachable Fault.refusals := reachable_after _
  ⟨reached.tables_agree.1, reached.tables_agree.2.1⟩

end Coordinator

end Coordination
