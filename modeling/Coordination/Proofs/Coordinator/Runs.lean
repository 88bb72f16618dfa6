import Coordination.Proofs.Coordinator.Requests
import Coordination.Proofs.Tree.Recovery

/-!
# Runs of the coordinator

A run starts with a coordinator that is new over an empty store or recovered from any store, and
goes on with any calls at any times; before each call the store may set and lift faults as it likes.
`Reachable` says where runs lead, given the faults that may occur. The tables are sound wherever a
run leads, whatever the faults.
-/

namespace Coordination

/-- The faults that refuse a call and do no other harm. -/
def Fault.refusals : Set Fault := {f | ∃ detail, f = .refuse detail}

/-- Where all faults refuse, a plain reason is a failure that contradicts nothing. -/
lemma Interruption.Plain.harmless {fault : StoreCall → Option Fault} {e : Interruption}
    (plain : e.Plain fault) (may : ∀ kind f, fault kind = some f → f ∈ Fault.refusals) :
    ∃ why, e = .refused why ∧ ¬ why.IsFatal := by
  cases plain with
  | refused harmless => exact ⟨_, rfl, harmless⟩
  | faulty set =>
    obtain ⟨detail, rfl⟩ := may _ _ set
    exact ⟨_, rfl, by simp [Failure.IsFatal]⟩

/-- Only a store that dies leaves a caller without a reason. -/
lemma Interruption.Plain.dies {fault : StoreCall → Option Fault}
    (plain : Interruption.crashed.Plain fault) : ∃ kind, fault kind = some .crash := by
  generalize eq : Interruption.crashed = e at plain
  cases plain with
  | refused => cases eq
  | @faulty kind f set =>
    cases f with
    | crash => exact ⟨kind, set⟩
    | _ => cases eq

namespace Coordinator

/-- The store sets and lifts faults. -/
def withFaults (c : Coordinator) (fault : StoreCall → Option Fault) : Coordinator :=
  { c with state := c.state.withStore ⟨c.state.store.contents, fault⟩ }

/-- Where runs lead in which all faults of the store are among `allowed`. -/
inductive Reachable (allowed : Set Fault) : Coordinator → Prop
  | new (terms : LeaseTerms) (now : Instant) {fault : StoreCall → Option Fault}
      (may : ∀ kind f, fault kind = some f → f ∈ allowed) :
      Reachable allowed (new terms now ⟨.empty, fault⟩)
  | recover {terms : LeaseTerms} {now : Instant} {store : Store} {c : Coordinator}
      (may : ∀ kind f, store.fault kind = some f → f ∈ allowed)
      (recovered : Coordinator.recover terms now store = .ok c) : Reachable allowed c
  | perform {c : Coordinator} (reached : Reachable allowed c) (now : Instant) (call : Call)
      {fault : StoreCall → Option Fault} (may : ∀ kind f, fault kind = some f → f ∈ allowed) :
      Reachable allowed ((c.withFaults fault).perform now call).coordinator

/-- Where a run can go on to while a condition holds of the tables at every stop. -/
inductive Onward (allowed : Set Fault) (during : State → Prop) (c : Coordinator) :
    Coordinator → Prop
  | stay (holds : during c.state) : Onward allowed during c c
  | perform {c' : Coordinator} (led : Onward allowed during c c') (now : Instant) (call : Call)
      {fault : StoreCall → Option Fault} (may : ∀ kind f, fault kind = some f → f ∈ allowed)
      (holds : during ((c'.withFaults fault).perform now call).coordinator.state) :
      Onward allowed during c ((c'.withFaults fault).perform now call).coordinator

variable {allowed : Set Fault} {during : State → Prop} {c c' : Coordinator}

/-- What holds during a part of a run holds at its end. -/
lemma Onward.holds (led : Onward allowed during c c') : during c'.state := by
  cases led with
  | stay holds => exact holds
  | perform led now call may holds => exact holds

/-- A run with certain faults is a run in which others may occur as well. -/
lemma Reachable.mono {more : Set Fault} (sub : allowed ⊆ more) (reached : c.Reachable allowed) :
    c.Reachable more := by
  induction reached with
  | new terms now may => exact .new terms now fun kind f set => sub (may kind f set)
  | recover may recovered => exact .recover (fun kind f set => sub (may kind f set)) recovered
  | perform reached now call may ih =>
    exact ih.perform now call fun kind f set => sub (may kind f set)

/-- A run that goes on is a run. -/
lemma Onward.reachable (led : Onward allowed during c c') (reached : c.Reachable allowed) :
    c'.Reachable allowed := by
  induction led with
  | stay => exact reached
  | perform led now call may holds ih => exact ih.perform now call may

end Coordinator

/-! ## The start of a run -/

namespace State

/-- Tables over a tree that nobody uses are sound. -/
lemma sound_new {tree : Tree} (bare : tree.Bare) (terms : LeaseTerms) (epoch : Instant)
    (store : Store) : (State.new tree terms epoch store).Sound where
  linked := by
    constructor
    case tree => exact bare.wellFormed
    case session_of_handle => exact fun _ _ found => nomatch found
    case node_of_handle => exact fun _ _ found => nomatch found
    case handle_of_session => exact fun _ _ _ found => nomatch found
    case handle_of_node =>
      intro id n h found mem
      rw [bare.unused id n found] at mem
      exact absurd mem FinMap.not_mem_empty
    case node_of_lock => exact fun _ _ found => nomatch found
    case handle_of_request => exact fun _ _ mem => nomatch mem
    case consistent => exact fun _ _ found => nomatch found
    case fresh_handle => exact fun _ _ found => nomatch found
    case fresh_session => exact fun _ _ found => nomatch found
  tidy := by
    constructor
    case live => exact fun _ _ found => nomatch found
    case settled => exact fun _ _ => LockState.settled_free
    case noted => exact fun _ _ _ _ found => nomatch found

end State

namespace Coordinator

variable {allowed : Set Fault} {c : Coordinator} {fault : StoreCall → Option Fault}

/-- A recovered coordinator serves a recovered tree. -/
lemma recover_eq_ok {terms : LeaseTerms} {now : Instant} {store : Store}
    (recovered : recover terms now store = .ok c) :
    ∃ tree st, Tree.recover store = .ok (tree, st) ∧ c = ofTree tree terms now st := by
  obtain ⟨⟨tree, st⟩, rebuilt, eq⟩ := bind_eq_ok.mp recovered
  exact ⟨tree, st, rebuilt, (Except.ok.inj eq).symm⟩

/-! ## A step of a run -/

/-- A call that is done hands over what it announced. -/
lemma perform_of_ok (serving : c.halted = false) (usable : c.poisoned = false) {now : Instant}
    {call : Call} {answer : Answer} {s' : State}
    (run : (call.op now).run c.state = (.ok answer, s')) : c.perform now call =
      ⟨.ok answer, { c with state := { s' with outbox := [] } }, s'.outbox⟩ := by
  unfold perform execute
  rw [serving, usable, run]
  rfl

/-- So does a call that is refused without a contradiction in the tables. -/
lemma perform_of_refused (serving : c.halted = false) (usable : c.poisoned = false) {now : Instant}
    {call : Call} {why : Failure} {s' : State} (harmless : ¬ why.IsFatal)
    (run : (call.op now).run c.state = (.error (.refused why), s')) : c.perform now call =
      ⟨.error (.refused why), { c with state := { s' with outbox := [] } }, s'.outbox⟩ := by
  unfold perform execute
  rw [serving, usable, run]
  cases why with
  | corrupted detail => exact absurd ⟨detail, rfl⟩ harmless
  | _ => rfl

/-- Whatever else a call runs into, its tables are what is left. It is not answered, and it hands
over what it announced or nothing. -/
lemma perform_of_error (serving : c.halted = false) (usable : c.poisoned = false) {now : Instant}
    {call : Call} {e : Interruption} {s' : State}
    (run : (call.op now).run c.state = (.error e, s')) :
    (∀ answer, (c.perform now call).result ≠ .ok answer) ∧
      (c.perform now call).coordinator.state = { s' with outbox := [] } ∧
      ((c.perform now call).commands = [] ∨ (c.perform now call).commands = s'.outbox) := by
  unfold perform execute
  rw [serving, usable, run]
  cases e with
  | crashed => exact ⟨nofun, rfl, .inl rfl⟩
  | refused why => cases why <;> exact ⟨nofun, rfl, .inr rfl⟩

/-- A call hands over what it announced on the tables, or nothing. -/
lemma commands_of_run {now : Instant} {call : Call} {result : Except Interruption Answer} {s' : State}
    (run : (call.op now).run c.state = (result, s')) :
    (c.perform now call).commands = [] ∨ (c.perform now call).commands = s'.outbox := by
  unfold perform execute
  rw [run]
  split
  · exact .inl rfl
  split
  · exact .inl rfl
  cases result with
  | ok => exact .inr rfl
  | error e =>
    cases e with
    | crashed => exact .inl rfl
    | refused why => cases why <;> exact .inr rfl

/-- A call is done or fails as it does on the tables, unless the coordinator serves nobody. -/
lemma perform_outcome (sound : c.state.Sound) (now : Instant) (call : Call) :
    (∃ answer s', c.state.Done now call answer s' ∧ (c.perform now call).result = .ok answer ∧
      (c.perform now call).coordinator.state = { s' with outbox := [] } ∧
      (c.perform now call).commands = s'.outbox) ∨
    (∀ answer, (c.perform now call).result ≠ .ok answer) ∧
      ((c.perform now call).coordinator.state = c.state ∧ (c.perform now call).commands = [] ∨
      ∃ e s', c.state.Failed now call e s' ∧
        (c.perform now call).coordinator.state = { s' with outbox := [] } ∧
        ((c.perform now call).commands = [] ∨ (c.perform now call).commands = s'.outbox)) := by
  -- who has halted or is poisoned answers without looking at the tables
  cases serving : c.halted with
  | true =>
    unfold perform execute
    rw [serving]
    exact .inr ⟨nofun, .inl ⟨rfl, rfl⟩⟩
  | false =>
    cases usable : c.poisoned with
    | true =>
      unfold perform execute
      rw [serving, usable]
      exact .inr ⟨nofun, .inl ⟨rfl, rfl⟩⟩
    | false =>
      have meets := Op.meets_op sound now call
      unfold Op.Meets at meets
      split at meets
      case h_1 answer s' run =>
        refine .inl ⟨answer, s', meets, ?_⟩
        rw [perform_of_ok serving usable run]
        exact ⟨rfl, rfl, rfl⟩
      case h_2 e s' run =>
        obtain ⟨unanswered, state, told⟩ := perform_of_error serving usable run
        exact .inr ⟨unanswered, .inr ⟨e, s', meets, state, told⟩⟩

/-- A call changes nothing, or is done, or fails. -/
lemma perform_cases (sound : c.state.Sound) (now : Instant) (call : Call) :
    (c.perform now call).coordinator.state = c.state ∨
    (∃ answer s', c.state.Done now call answer s' ∧
      (c.perform now call).coordinator.state = { s' with outbox := [] }) ∨
    ∃ e s', c.state.Failed now call e s' ∧
      (c.perform now call).coordinator.state = { s' with outbox := [] } := by
  rcases perform_outcome sound now call with
    ⟨answer, s', deed, -, state, -⟩ | ⟨-, ⟨same, -⟩ | ⟨e, s', failed, state, -⟩⟩
  · exact .inr (.inl ⟨answer, s', deed, state⟩)
  · exact .inl same
  · exact .inr (.inr ⟨e, s', failed, state⟩)

/-- A call that is answered is done. -/
lemma done_of_ok (sound : c.state.Sound) {now : Instant} {call : Call} {answer : Answer}
    (result : (c.perform now call).result = .ok answer) : ∃ s', c.state.Done now call answer s' ∧
      (c.perform now call).coordinator.state = { s' with outbox := [] } := by
  rcases perform_outcome sound now call with ⟨answer', s', deed, eq, state, -⟩ | ⟨unanswered, -⟩
  · obtain rfl : answer' = answer := Except.ok.inj (eq.symm.trans result)
    exact ⟨s', deed, state⟩
  · exact absurd result (unanswered answer)

/-- A call that is not answered has failed on the tables, unless the coordinator serves nobody. -/
lemma error_of_perform (sound : c.state.Sound) {now : Instant} {call : Call} {e : Interruption}
    (failed : (c.perform now call).result = .error e) :
    e = .refused (.corrupted "master halted") ∨ e = .refused (.corrupted "state lock poisoned") ∨
      ∃ s', (call.op now).run c.state = (.error e, s') ∧ c.state.Failed now call e s' := by
  unfold perform execute at failed
  cases serving : c.halted with
  | true =>
    rw [serving] at failed
    exact .inl (Except.error.inj failed).symm
  | false =>
    cases usable : c.poisoned with
    | true =>
      rw [serving, usable] at failed
      exact .inr (.inl (Except.error.inj failed).symm)
    | false =>
      have meets := Op.meets_op sound now call
      unfold Op.Meets at meets
      rw [serving, usable] at failed
      cases run : (call.op now).run c.state with
      | mk result s' =>
        rw [run] at failed meets
        cases result with
        | ok answer => cases failed
        | error e' =>
          obtain rfl : e' = e := by
            cases e' with
            | crashed => exact Except.error.inj failed
            | refused why => cases why <;> exact Except.error.inj failed
          exact .inr (.inr ⟨s', rfl, meets⟩)

/-- A call that is not even refused has found the store dying. -/
lemma died_of_perform (sound : c.state.Sound) {now : Instant} {call : Call}
    (failed : (c.perform now call).result = .error .crashed) :
    ∃ kind, c.state.store.fault kind = some .crash := by
  rcases error_of_perform sound failed with halted | poisoned | ⟨s', -, -, plain⟩
  · cases halted
  · cases poisoned
  · exact plain.dies

/-- What every deed and every contact keeps, every run keeps. -/
lemma Reachable.induction {P : State → Prop} (new : ∀ terms now fault,
      P (State.new .new terms now ⟨.empty, fault⟩))
    (recover : ∀ tree terms now store st, Tree.recover store = .ok (tree, st) →
      P (State.new tree terms now st))
    (faults : ∀ s : State, ∀ fault, P s → P (s.withStore ⟨s.store.contents, fault⟩))
    (contact : ∀ s : State, ∀ caller now, P s → P (s.contacted caller now))
    (done : ∀ (s : State) now call answer s', s.Sound → (∀ kind f, s.store.fault kind = some f →
      f ∈ allowed) → s.Done now call answer s' → P s → P s')
    (sent : ∀ s : State, P s → P { s with outbox := [] }) (reached : c.Reachable allowed) :
    c.state.Sound ∧ P c.state := by
  -- soundness goes along, as it says what a call does
  induction reached with
  | new => exact ⟨State.sound_new Tree.bare_new _ _ _, new ..⟩
  | recover may recovered =>
    obtain ⟨tree, st, rebuilt, rfl⟩ := recover_eq_ok recovered
    exact ⟨State.sound_new (Tree.bare_of_recover rebuilt) _ _ _, recover _ _ _ _ _ rebuilt⟩
  | @perform c reached now call fault may ih =>
    have sound : (c.withFaults fault).state.Sound := ih.1.withStore _
    have holds : P (c.withFaults fault).state := faults _ fault ih.2
    rcases perform_cases sound now call with
      same | ⟨answer, s', deed, eq⟩ | ⟨e, s', ⟨kept, -⟩, eq⟩
    · rw [same]
      exact ⟨sound, holds⟩
    · rw [eq]
      exact ⟨(sound.done deed).with_outbox [], sent _ (done _ now call answer s' sound may deed holds)⟩
    · rw [eq]
      rcases kept with rfl | ⟨caller, -, rfl⟩
      · exact ⟨sound.with_outbox [], sent _ holds⟩
      · exact ⟨(sound.contacted caller now).with_outbox [], sent _ (contact _ caller now holds)⟩

/-- The tables are sound wherever a run leads. -/
lemma Reachable.sound (reached : c.Reachable allowed) : c.state.Sound := by
  have start : c.state.Sound ∧ True := by
    refine Reachable.induction (P := fun _ => True) ?_ ?_ ?_ ?_ ?_ ?_ reached
    all_goals intros; trivial
  exact start.1

/-- Calls that nothing stops lead to further places. -/
lemma Reachable.calls (reached : c.Reachable allowed) (now : Instant) (calls : List Call) :
    (calls.foldl (fun c call => ((c.withFaults fun _ => none).perform now call).coordinator)
      c).Reachable allowed := by
  induction calls generalizing c with
  | nil => exact reached
  | cons call rest ih => exact ih (reached.perform now call nofun)

/-- A new coordinator after calls that nothing stops. -/
def after (calls : List Call) : Coordinator :=
  calls.foldl (fun c call => ((c.withFaults fun _ => none).perform 0 call).coordinator)
    (new .standard 0 ⟨.empty, fun _ => none⟩)

/-- Any calls lead to a reachable coordinator. -/
lemma reachable_after (calls : List Call) : (after calls).Reachable allowed := by
  have start : (new .standard 0 ⟨.empty, fun _ => none⟩).Reachable allowed := .new _ _ (by simp)
  exact start.calls 0 calls

end Coordinator

end Coordination
