import Coordination.Proofs.Coordinator.Safety

/-!
# Calls that fail

A call that fails leaves no trace but the contact of its caller: the checks of a call come before
its write to the store, and nothing after the write can fail. What the tables may look like after a
failure is `State.Failed`; here it is spelled out table by table and carried over to the
coordinator, which hands nothing over to delivery.
-/

namespace Coordination

namespace State

/-- Nothing has changed but the contact of one session, if any. -/
structure Spares (s : State) (caller : Option SessionId) (s' : State) : Prop where
  tree : s'.tree = s.tree
  locks : s'.locks = s.locks
  handles : s'.handles = s.handles
  store : s'.store = s.store
  next_session : s'.sessions.next = s.sessions.next
  others : ∀ i, caller ≠ some i → s'.sessions.get? i = s.sessions.get? i
  /-- No session is new. -/
  old_session : ∀ i x', s'.sessions.get? i = some x' → ∃ x, s.sessions.get? i = some x
  /-- A session keeps its handles and locks; its last contact is not earlier, and contact may end
  its jeopardy. -/
  session : ∀ i x, s.sessions.get? i = some x → ∃ x', s'.sessions.get? i = some x' ∧
    x'.handles = x.handles ∧ x'.locks = x.locks ∧ x.lastContact ≤ x'.lastContact ∧
      (x'.state = x.state ∨ x.state = .jeopardy ∧ x'.state = .connected)

variable {s s' : State} {now : Instant} {call : Call} {caller : SessionId}

/-- Where nothing happens everything is spared. -/
lemma Spares.refl (s : State) (caller : Option SessionId) : s.Spares caller s where
  tree := rfl
  locks := rfl
  handles := rfl
  store := rfl
  next_session := rfl
  others := fun _ _ => rfl
  old_session := fun _ x found => ⟨x, found⟩
  session := fun _ x found => ⟨x, found, rfl, rfl, le_rfl, .inl rfl⟩

/-- A contact spares everything but the session of the caller. -/
lemma spares_contacted (s : State) (caller : SessionId) (now : Instant) :
    s.Spares (some caller) (s.contacted caller now) where
  tree := rfl
  locks := rfl
  handles := rfl
  store := rfl
  next_session := rfl
  others := by
    intro i other
    rw [contacted, SessionTable.get?_modify, if_neg]
    rintro rfl
    exact other rfl
  old_session := by
    intro i x' found'
    obtain ⟨x, found, -⟩ := FinMap.get?_modify_eq_some.mp found'
    exact ⟨x, found⟩
  session := by
    intro i x found
    refine ⟨_, FinMap.get?_modify_of_get? found, ?_⟩
    split
    case isTrue =>
      refine ⟨rfl, rfl, Nat.le_max_left .., ?_⟩
      by_cases jeopardy : x.state = .jeopardy
      · exact .inr ⟨jeopardy, if_pos jeopardy⟩
      · exact .inl (if_neg jeopardy)
    case isFalse => exact ⟨rfl, rfl, le_rfl, .inl rfl⟩

/-- Announcements that were handed over do not count. -/
lemma Spares.with_outbox {caller : Option SessionId} (spares : s.Spares caller s')
    (outbox : List Command) : s.Spares caller { s' with outbox } := by
  obtain ⟨a, b, c, d, e, f, g, h⟩ := spares
  exact ⟨a, b, c, d, e, f, g, h⟩

/-- A call that fails announces nothing and leaves no trace but the contact of its caller. -/
lemma Failed.spares {e : Interruption} (failed : s.Failed now call e s') :
    s.Spares call.caller? s' ∧ s'.outbox = s.outbox := by
  obtain ⟨rfl | ⟨caller, named, rfl⟩, -⟩ := failed
  · exact ⟨.refl s' _, rfl⟩
  · rw [named]
    exact ⟨s.spares_contacted caller now, rfl⟩

end State

namespace Coordinator

variable {allowed : Set Fault} {c : Coordinator} {fault : StoreCall → Option Fault}
variable {now : Instant} {call : Call} {e : Interruption}

/-- Between two calls nothing waits to be handed over. -/
lemma Reachable.outbox_eq_nil (reached : c.Reachable allowed) : c.state.outbox = [] := by
  induction reached with
  | new => rfl
  | recover may recovered =>
    obtain ⟨tree, st, -, rfl⟩ := recover_eq_ok recovered
    rfl
  | @perform c reached now call fault may ih =>
    have sound : (c.withFaults fault).state.Sound := reached.sound.withStore _
    rcases perform_cases sound now call with same | ⟨-, s', -, eq⟩ | ⟨-, s', -, eq⟩
    · rw [same]
      exact ih
    · rw [eq]
    · rw [eq]

/-- Over a store that only refuses, the tables of a call that fails are those of its operation. -/
lemma Serves.failed (serves : c.Serves) (sound : c.state.Sound)
    (may : ∀ kind f, c.state.store.fault kind = some f → f ∈ Fault.refusals)
    (failed : (c.perform now call).result = .error e) :
    ∃ s', c.state.Failed now call e s' ∧ c.perform now call =
      ⟨.error e, { c with state := { s' with outbox := [] } }, s'.outbox⟩ := by
  obtain ⟨serving, usable⟩ := serves
  have meets := Op.meets_op sound now call
  unfold Op.Meets at meets
  split at meets
  case h_1 answer s' run =>
    rw [perform_of_ok serving usable run] at failed
    cases failed
  case h_2 e' s' run =>
    obtain ⟨why, rfl, harmless⟩ := meets.2.harmless may
    have outcome := perform_of_refused serving usable harmless run
    rw [outcome] at failed ⊢
    obtain rfl := Except.error.inj failed
    exact ⟨s', meets, rfl⟩

/-- Over a store that only refuses, a call that fails hands nothing over and changes nothing in the
tables and the store but the contact of its caller. -/
theorem Reachable.failure_atomic (reached : c.Reachable Fault.refusals)
    (may : ∀ kind f, fault kind = some f → f ∈ Fault.refusals)
    (failed : ((c.withFaults fault).perform now call).result = .error e) :
    ((c.withFaults fault).perform now call).commands = [] ∧
      (c.withFaults fault).state.Spares call.caller?
        ((c.withFaults fault).perform now call).coordinator.state := by
  have sound : (c.withFaults fault).state.Sound := reached.sound.withStore _
  have serves : (c.withFaults fault).Serves := reached.serves
  obtain ⟨s', traceless, outcome⟩ := serves.failed sound may failed
  obtain ⟨spares, silent⟩ := traceless.spares
  rw [outcome]
  exact ⟨silent.trans reached.outbox_eq_nil, spares.with_outbox []⟩

/-- The store refuses to record a directory that nothing else stands in the way of. -/
theorem failure_atomic_contended : ∃ (fault : StoreCall → Option Fault) (e : Interruption),
    ((contended.withFaults fault).perform 5000000 (.mkdir ⟨1⟩ "/d")).result = .error e ∧
    ((contended.withFaults fault).perform 5000000 (.mkdir ⟨1⟩ "/d")).commands = [] := by
  let fault : StoreCall → Option Fault := fun _ => some (.refuse "disk full")
  have reached : contended.Reachable Fault.refusals := reachable_after _
  have may : ∀ kind f, fault kind = some f → f ∈ Fault.refusals := by
    rintro kind f eq
    exact ⟨"disk full", (Option.some.inj eq).symm⟩
  have failed : ((contended.withFaults fault).perform 5000000 (.mkdir ⟨1⟩ "/d")).result =
      .error (.refused (.store "disk full")) := by
    decide +kernel
  exact ⟨fault, _, failed, (reached.failure_atomic may failed).1⟩

end Coordinator

end Coordination
