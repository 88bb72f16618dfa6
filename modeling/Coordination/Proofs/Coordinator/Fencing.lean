import Coordination.Proofs.Coordinator.Journal
import Coordination.Proofs.Coordinator.Passage

/-!
# Generations of a lock

The generation of a lock counts the exclusive grants on its node. Grants are made on the spot or to
waiters that are served when a lock is released, a handle closed or a session ended; an `Annals` keeps
them all, call by call. The identifier of a node is not used again, so the count for a node begins
when it is created. As a request that is granted on the spot is answered with the generation, the
answers order the exclusive holders of a node.
-/

namespace Coordination

/-- The number of exclusive grants on a node. -/
def exclusives (node : NodeId) (grants : List Grant) : Nat :=
  grants.countP fun g => g.node = node && g.waiter.mode = .exclusive

variable {node : NodeId} {grants grants' : List Grant}

/-- Exclusive grants add up. -/
lemma exclusives_append :
    exclusives node (grants ++ grants') = exclusives node grants + exclusives node grants' :=
  List.countP_append

/-- The exclusive grants on a node are those of its waiters and newcomers. -/
lemma exclusives_eq : exclusives node grants =
    (State.grantedOn node grants).countP (·.mode = .exclusive) := by
  rw [State.grantedOn, List.countP_map, List.countP_filter]
  simp [exclusives, Bool.and_comm]

/-- Grants on other nodes do not count. -/
lemma exclusives_eq_zero (elsewhere : ∀ g ∈ grants, g.node ≠ node) : exclusives node grants = 0 :=
  List.countP_eq_zero.mpr fun g mem => by simp [elsewhere g mem]

/-! ## What changes a generation -/

/-- Serving waiters counts the exclusive ones. -/
lemma LockState.generation_serve (l : LockState) (queue : List Waiter) :
    (l.serve queue).2.generation =
      l.generation + (l.serve queue).1.countP (·.mode = .exclusive) := by
  induction queue generalizing l with
  | nil => rfl
  | cons w rest ih =>
    rw [serve]
    split
    · rw [ih, List.countP_cons, grant]
      by_cases exclusive : w.mode = .exclusive
      · simp only [exclusive, if_true, decide_true]
        omega
      · simp only [exclusive, if_false, decide_false, Bool.false_eq_true]
        omega
    · rfl

namespace State

variable {call : Call} {s s' t : State} {id : NodeId} {n n' : Node}

/-- What is done to a lock changes its generation by the exclusive grants. -/
lemma LockStage.generation {l l' : LockState} {served : List Waiter}
    (stage : LockStage call l served l') :
    l'.generation = l.generation + served.countP (·.mode = .exclusive) := by
  cases stage with
  | same => rfl
  | @granted w =>
    rw [List.countP_singleton, LockState.grant]
    by_cases exclusive : w.mode = .exclusive <;> simp [exclusive]
  | queued => rfl
  | stripped => rfl
  | promoted => exact l.generation_serve l.waiters

/-- A stage changes the generation of a lock by the exclusive grants on its node. -/
lemma Stage.generation (stage : s.Stage call grants s') (found' : s'.tree.get? id = some n') :
    (s'.locks.lock id).generation = (s.locks.lock id).generation + exclusives id grants := by
  rcases stage.lock id with once | ⟨-, gone⟩
  · rw [once.generation, exclusives_eq]
  · exact nomatch gone.symm.trans found'

/-- The generations of all locks are accounted for by the grants so far. -/
structure Counted (s : State) (grants : List Grant) : Prop where
  exact : ∀ id n, s.tree.get? id = some n → (s.locks.lock id).generation = exclusives id grants
  unused : ∀ id, ¬ id < s.tree.next → exclusives id grants = 0

/-- A stage keeps the account. -/
lemma Counted.stage (counted : s.Counted grants) (linked : s.Linked)
    (stage : s.Stage call grants' s') : s'.Counted (grants ++ grants') where
  exact id n' found' := by
    rw [stage.generation found', exclusives_append]
    rcases stage.node_of linked found' with rfl | ⟨n, found, -⟩
    · -- nobody ever asked for the lock of a node that is new
      have free : s.locks.lock s.tree.next = .free := by
        cases entry : s.locks.get? s.tree.next with
        | none => exact LockTable.lock_of_none entry
        | some l =>
          obtain ⟨n, found⟩ := linked.node_of_lock _ l entry
          exact nomatch linked.tree.get?_next.symm.trans found
      rw [free, counted.unused _ (StrictOrder.irrefl _)]
      rfl
    · rw [counted.exact id n found]
  unused id fresh := by
    have unused : ¬ id < s.tree.next := fun used => fresh (stage.lt_next linked used)
    rw [exclusives_append, counted.unused id unused, Nat.zero_add]
    refine exclusives_eq_zero fun g mem => ?_
    rintro rfl
    -- the node of an open handle exists
    obtain ⟨r, found, seat⟩ := stage.handle_of_grant linked g mem
    obtain ⟨n, node, -⟩ := linked.node_of_handle _ r found
    exact unused (linked.tree.fresh _ n (seat ▸ node))

/-- Passages keep the account. -/
lemma Counted.passage (counted : s.Counted grants) (passage : s.Passage call grants' s') :
    s'.Counted (grants ++ grants') := by
  induction passage with
  | start =>
    rw [List.append_nil]
    exact counted
  | stage before linked stage ih =>
    rw [← List.append_assoc]
    exact ih.stage linked stage

end State

namespace Exchange

/-- A call is granted a lock on the spot and answered with a generation; the node is that of the
handle it names. -/
structure Grants (x : Exchange) (node : NodeId) (mode : LockMode) (generation : Nat) : Prop where
  answered : ∃ session handle r,
    (x.call = .lock session handle mode ∧
        x.outcome.result = .ok (.lock (.granted generation)) ∨
      x.call = .tryLock session handle mode ∧ x.outcome.result = .ok (.generation generation)) ∧
    x.outcome.coordinator.state.handles.get? handle = some r ∧ r.node = node

end Exchange

namespace Coordinator

/-- A run and its record, with the locks granted in the course of each call. -/
inductive Annals (allowed : Set Fault) : List (Exchange × List Grant) → Coordinator → Prop
  | new (terms : LeaseTerms) (now : Instant) {fault : StoreCall → Option Fault}
      (may : ∀ kind f, fault kind = some f → f ∈ allowed) :
      Annals allowed [] (new terms now ⟨.empty, fault⟩)
  | recover {terms : LeaseTerms} {now : Instant} {store : Store} {c : Coordinator}
      (may : ∀ kind f, store.fault kind = some f → f ∈ allowed)
      (recovered : Coordinator.recover terms now store = .ok c) : Annals allowed [] c
  | perform {log : List (Exchange × List Grant)} {c : Coordinator} (kept : Annals allowed log c)
      (now : Instant) (call : Call) {fault : StoreCall → Option Fault}
      (may : ∀ kind f, fault kind = some f → f ∈ allowed) {grants : List Grant} {s' : State}
      (passage : (c.withFaults fault).state.Passage call grants s')
      (left : ((c.withFaults fault).perform now call).coordinator.state = { s' with outbox := [] }) :
      Annals allowed (log ++ [(⟨call, (c.withFaults fault).perform now call⟩, grants)])
        ((c.withFaults fault).perform now call).coordinator

/-- All locks granted so far. -/
def granted (log : List (Exchange × List Grant)) : List Grant := log.flatMap Prod.snd

variable {allowed : Set Fault} {c c' : Coordinator} {log before since : List (Exchange × List Grant)}
variable {x : Exchange} {mode : LockMode} {g : Nat}

/-- A run with its annals is a run. -/
lemma Annals.reachable (kept : Annals allowed log c) : c.Reachable allowed := by
  induction kept with
  | new terms now may => exact .new terms now may
  | recover may recovered => exact .recover may recovered
  | perform kept now call may _ _ ih => exact ih.perform now call may

/-- Every run has its annals. -/
lemma Journal.annals {log : List Exchange} (kept : Journal allowed log c) :
    ∃ annals, Annals allowed annals c ∧ annals.map Prod.fst = log := by
  induction kept with
  | new terms now may => exact ⟨[], .new terms now may, rfl⟩
  | recover may recovered => exact ⟨[], .recover may recovered, rfl⟩
  | @perform log c kept now call fault may ih =>
    obtain ⟨annals, kept', eq⟩ := ih
    have sound : (c.withFaults fault).state.Sound := kept.reachable.sound.withStore _
    obtain ⟨grants, s', passage, left⟩ :=
      passage_perform sound kept.reachable.outbox_eq_nil now call
    exact ⟨_, kept'.perform now call may passage left, by rw [List.map_append, eq]; rfl⟩

/-- The annals account for the generations. -/
lemma Annals.counted (kept : Annals allowed log c) : c.state.Counted (granted log) := by
  induction kept with
  | new => exact ⟨fun _ _ _ => rfl, fun _ _ => rfl⟩
  | recover may recovered =>
    obtain ⟨tree, st, -, rfl⟩ := recover_eq_ok recovered
    exact ⟨fun _ _ _ => rfl, fun _ _ => rfl⟩
  | @perform log c kept now call fault may grants s' passage left ih =>
    have start : (c.withFaults fault).state.Counted (granted log) := ⟨ih.exact, ih.unused⟩
    obtain ⟨exact, unused⟩ := start.passage passage
    have all : granted (log ++ [(⟨call, (c.withFaults fault).perform now call⟩, grants)]) =
        granted log ++ grants := by simp [granted]
    rw [all, left]
    exact ⟨exact, unused⟩

/-- Every call of a record was made where the record up to then leads. -/
lemma Annals.exists_call {grants : List Grant}
    (kept : Annals allowed (before ++ (x, grants) :: since) c) : ∃ c₀ fault now call,
      Annals allowed before c₀ ∧ x = ⟨call, (withFaults c₀ fault).perform now call⟩ ∧
      Annals allowed (before ++ [(x, grants)]) x.outcome.coordinator := by
  generalize eq : before ++ (x, grants) :: since = log at kept
  induction kept generalizing since with
  | new => simp at eq
  | recover => simp at eq
  | @perform log c kept now call fault may gs s' passage left ih =>
    rcases List.eq_nil_or_concat since with rfl | ⟨since', last, rfl⟩
    · obtain ⟨rfl, last⟩ := List.append_inj' eq rfl
      obtain ⟨rfl, rfl⟩ := Prod.mk.inj (List.cons.inj last).1
      exact ⟨c, fault, now, call, kept, rfl, kept.perform now call may passage left⟩
    · rw [List.concat_eq_append, ← List.cons_append, ← List.append_assoc] at eq
      exact ih (List.append_inj' eq rfl).1

/-- What is left when a request is granted on the spot. -/
lemma granted_on_spot {s s' : State} {now : Instant} {call : Call} {answer : Answer}
    {session : SessionId} {handle : HandleId} (done : s.Done now call answer s')
    (asked : call = .lock session handle mode ∧ answer = .lock (.granted g) ∨
      call = .tryLock session handle mode ∧ answer = .generation g) :
    ∃ r, s.handles.get? handle = some r ∧ s'.handles = s.handles ∧ s'.tree = s.tree ∧
      g = (s.locks.lock r.node).generation + (if mode = .exclusive then 1 else 0) ∧
      (s'.locks.lock r.node).generation = g := by
  have left : ∀ r, s.handles.get? handle = some r → r.session = session →
      s' = (s.contacted session now).granted handle r mode →
      g = ((s.locks.lock r.node).grant ⟨session, handle⟩ mode).generation →
      ∃ r, s.handles.get? handle = some r ∧ s'.handles = s.handles ∧ s'.tree = s.tree ∧
        g = (s.locks.lock r.node).generation + (if mode = .exclusive then 1 else 0) ∧
        (s'.locks.lock r.node).generation = g := by
    rintro r found rfl rfl rfl
    have told := State.sameTables_tell ({ s.contacted r.session now with
      locks := s.locks.insert r.node ((s.locks.lock r.node).grant ⟨r.session, handle⟩ mode) }.noteHeld
        r.session ⟨r.node, handle⟩) handle .lockAcquired
    refine ⟨r, found, told.handles, told.tree, ?_, ?_⟩
    · rw [LockState.grant]
      split <;> rfl
    · refine congrArg LockState.generation ((congrArg (LockTable.lock · r.node) told.locks).trans ?_)
      exact (LockTable.lock_insert _ _).trans (if_pos rfl)
  rcases asked with ⟨rfl, rfl⟩ | ⟨rfl, rfl⟩
  · cases done with
    | lockGranted owns asks fresh admitted => exact left _ owns.found owns.own rfl rfl
  · cases done with
    | tryLock owns asks fresh admitted => exact left _ owns.found owns.own rfl rfl

/-- The answer to a request that is granted on the spot is the generation of the lock, which has
just been increased if the request was exclusive. -/
lemma grants_perform (sound : c.state.Sound) {now : Instant} {call : Call}
    (grants : Exchange.Grants ⟨call, c.perform now call⟩ node mode g) :
    (∃ n, c.state.tree.get? node = some n) ∧
      (c.perform now call).coordinator.state.tree = c.state.tree ∧
      g = (c.state.locks.lock node).generation + (if mode = .exclusive then 1 else 0) ∧
      ((c.perform now call).coordinator.state.locks.lock node).generation = g := by
  obtain ⟨session, handle, r, asked, found', rfl⟩ := grants.answered
  rcases perform_outcome sound now call with ⟨answer, s', done, result, state, -⟩ | ⟨none, -⟩
  · have asked : call = .lock session handle mode ∧ answer = .lock (.granted g) ∨
        call = .tryLock session handle mode ∧ answer = .generation g := by
      refine asked.imp (And.imp_right fun eq => ?_) (And.imp_right fun eq => ?_)
      · exact Except.ok.inj (result.symm.trans eq)
      · exact Except.ok.inj (result.symm.trans eq)
    obtain ⟨r₀, found, handles, tree, before, after⟩ := granted_on_spot done asked
    have eq : r = r₀ := by
      have found₀ : s'.handles.get? handle = some r := by
        rw [state] at found'
        exact found'
      rw [handles] at found₀
      exact Option.some.inj (found₀.symm.trans found)
    subst eq
    obtain ⟨n, node, -⟩ := sound.linked.node_of_handle handle r found
    rw [state]
    exact ⟨⟨n, node⟩, tree, before, after⟩
  · rcases asked with ⟨-, eq⟩ | ⟨-, eq⟩
    · exact absurd eq (none _)
    · exact absurd eq (none _)

/-- A run that goes on has annals that go on. -/
lemma Annals.onward {during : State → Prop} (kept : Annals allowed log c)
    (led : Onward allowed during c c') : ∃ more, Annals allowed (log ++ more) c' := by
  induction led with
  | stay =>
    refine ⟨[], ?_⟩
    rw [List.append_nil]
    exact kept
  | @perform c₁ led now call fault may holds ih =>
    obtain ⟨more, kept₁⟩ := ih
    have sound : (c₁.withFaults fault).state.Sound := kept₁.reachable.sound.withStore _
    obtain ⟨grants, s', passage, left⟩ :=
      passage_perform sound kept₁.reachable.outbox_eq_nil now call
    refine ⟨more ++ [(⟨call, (c₁.withFaults fault).perform now call⟩, grants)], ?_⟩
    rw [← List.append_assoc]
    exact kept₁.perform now call may passage left

/-- The grants of two parts of the annals. -/
lemma granted_append : granted (before ++ since) = granted before ++ granted since :=
  List.flatMap_append

/-- What the annals of a run say of the generations of locks. -/
structure Fenced (allowed : Set Fault) (log : List (Exchange × List Grant)) (c : Coordinator) :
    Prop where
  /-- The generation of the lock of a node is the number of exclusive grants on it. -/
  counted : ∀ node n, c.state.tree.get? node = some n →
    (c.state.locks.lock node).generation = exclusives node (granted log)
  /-- So it is at every moment of whatever call comes next. -/
  midway : ∀ fault call grants t, (c.withFaults fault).state.Passage call grants t →
    ∀ node n, t.tree.get? node = some n →
      (t.locks.lock node).generation = exclusives node (granted log ++ grants)
  /-- It does not decrease while the node exists. -/
  forward : ∀ node c', Onward allowed (fun s => ∃ n, s.tree.get? node = some n) c c' →
    (c.state.locks.lock node).generation ≤ (c'.state.locks.lock node).generation
  /-- An exclusive request that is granted on the spot is answered with the number of the grant, a
  shared one with the number of the last exclusive grant before it. -/
  answered : ∀ before x grants since node mode g, log = before ++ (x, grants) :: since →
    x.Grants node mode g →
      g = exclusives node (granted before) + (if mode = .exclusive then 1 else 0)
  /-- So the answers to exclusive requests increase. -/
  increasing : ∀ before x grants between y grants' since node g g',
    log = before ++ (x, grants) :: (between ++ (y, grants') :: since) →
    x.Grants node .exclusive g → y.Grants node .exclusive g' → g < g'

/-- What holds during a part of a run holds at its start. -/
lemma Onward.start {during : State → Prop} (led : Onward allowed during c c') : during c.state := by
  induction led with
  | stay holds => exact holds
  | perform _ _ _ _ _ ih => exact ih

/-- A grant on the spot is answered with the number of exclusive grants so far. -/
lemma Annals.answered {grants : List Grant} (kept : Annals allowed (before ++ (x, grants) :: since) c)
    (spot : x.Grants node mode g) :
    g = exclusives node (granted before) + (if mode = .exclusive then 1 else 0) ∧
      g = exclusives node (granted (before ++ [(x, grants)])) := by
  obtain ⟨c₀, fault, now, call, kept₀, rfl, kept₁⟩ := kept.exists_call
  have sound : (c₀.withFaults fault).state.Sound := kept₀.reachable.sound.withStore _
  obtain ⟨⟨n, found⟩, tree, earlier, later⟩ := grants_perform sound spot
  have found₁ := (congrArg (Tree.get? · node) tree).trans found
  refine ⟨?_, ?_⟩
  · rw [← kept₀.counted.exact node n found]
    exact earlier
  · rw [← kept₁.counted.exact node n found₁]
    exact later.symm

/-- The generations of a run are fenced. -/
lemma Annals.fenced (kept : Annals allowed log c) : Fenced allowed log c where
  counted := kept.counted.exact
  midway fault call grants t passage node n found := by
    have start : (c.withFaults fault).state.Counted (granted log) :=
      ⟨kept.counted.exact, kept.counted.unused⟩
    exact (start.passage passage).exact node n found
  forward node c' led := by
    obtain ⟨more, kept'⟩ := kept.onward led
    obtain ⟨n, found⟩ := led.start
    obtain ⟨n', found'⟩ := led.holds
    rw [kept.counted.exact node n found, kept'.counted.exact node n' found', granted_append,
      exclusives_append]
    exact Nat.le_add_right ..
  answered before x grants since node mode g eq spot := by
    subst eq
    exact (kept.answered spot).1
  increasing before x grants between y grants' since node g g' eq first second := by
    subst eq
    have earlier := (kept.answered first).2
    rw [← List.cons_append, ← List.append_assoc] at kept
    have later := (kept.answered second).1
    rw [List.append_cons, granted_append, exclusives_append, if_pos rfl] at later
    omega

/-- Every run has annals, and whatever they are, the generations of locks count the exclusive grants
that they contain. -/
theorem Journal.fencing {log : List Exchange} (kept : Journal allowed log c) :
    (∃ annals, Annals allowed annals c ∧ annals.map Prod.fst = log) ∧
      ∀ annals, Annals allowed annals c → annals.map Prod.fst = log → Fenced allowed annals c :=
  ⟨kept.annals, fun _ kept' _ => kept'.fenced⟩

/-- Two clients hold the lock of a file exclusively one after the other, the second because the first
is gone; then the second asks for it again. -/
def handedOver : List Call :=
  [.createSession, .createSession, .openHandle ⟨1⟩ "/f" .create .none (.process "a"),
    .openHandle ⟨2⟩ "/f" .create .none (.process "b"), .lock ⟨1⟩ ⟨1⟩ .exclusive,
    .lock ⟨2⟩ ⟨2⟩ .exclusive, .destroySession ⟨1⟩, .release ⟨2⟩ ⟨2⟩, .tryLock ⟨2⟩ ⟨2⟩ .shared]

/-- The second client is answered with generation 2, which counts the exclusive grants. -/
theorem fencing_handedOver : ∃ annals, Annals ∅ annals (after handedOver) ∧
    annals.map Prod.fst = (after []).exchanges handedOver ∧
    ((after []).exchanges handedOver).any
      (fun x => decide (x.outcome.result = .ok (.generation 2))) = true ∧
    exclusives ⟨2⟩ (granted annals) = 2 := by
  have kept : Journal ∅ ((after []).exchanges handedOver) (after handedOver) := journal_after _
  obtain ⟨⟨annals, kept', eq⟩, all⟩ := kept.fencing
  have exists_node : ((after handedOver).state.tree.get? ⟨2⟩).isSome = true := by decide +kernel
  obtain ⟨n, found⟩ := Option.isSome_iff_exists.mp exists_node
  have generation : ((after handedOver).state.locks.lock ⟨2⟩).generation = 2 := by decide +kernel
  refine ⟨annals, kept', eq, by decide +kernel, ?_⟩
  rw [← (all annals kept' eq).counted ⟨2⟩ n found]
  exact generation

end Coordinator

end Coordination
