import Coordination.Proofs.Coordinator.Atomicity
import Coordination.Proofs.Coordinator.Passage
import Coordination.Proofs.Lock.Order

/-!
# Fairness of locks

Nobody barges in: a request is granted on the spot only if nobody would be overtaken, and `tryLock`
succeeds in exactly the same cases. Waiters are served in the order of their requests, and none is
forgotten. Both are statements about the order of the requests for a lock, which calls change only
as `LockTurnover` says. A call may grant locks that it takes away again, as when many sessions end at
once; that nobody is overtaken inside a call either is said of the stages it passes through, none of
which changes the turns of handles the call does not ask for.
-/

namespace Coordination

/-- A request need not wait: nobody holds the lock, or shared holders are joined for whom nobody
waits. -/
def LockState.Open (l : LockState) (mode : LockMode) : Prop :=
  l.holders = [] ∨ mode = .shared ∧ l.mode = .shared ∧ l.waiters = []

namespace State

variable {s s' : State} {call : Call} {node : NodeId} {w v : Waiter}

/-! ## Requests that stay -/

/-- A waiter has not released the lock, so if its request is withdrawn it goes with its handle. -/
lemma Linked.withdraws_waiting (linked : s.Linked) (waits : w ∈ (s.locks.lock node).waiters)
    (withdraws : call.Withdraws s node w s') :
    (call = .close w.session w.handle ∨ call.Dooms s w.session) ∧
      s'.handles.get? w.handle = none := by
  rcases withdraws with ⟨-, holds⟩ | ended
  · exact absurd holds ((linked.consistent.lock node).not_holder waits)
  · exact ended

/-- A waiter goes on waiting, is granted the lock, or goes with its handle. -/
lemma Turnover.waiter (turnover : Turnover call s s') (sound : s.Sound)
    (waits : w ∈ (s.locks.lock node).waiters) : w ∈ (s'.locks.lock node).waiters ∨
      w.holder ∈ (s'.locks.lock node).holders ∨ call = .close w.session w.handle ∨
        call.Dooms s w.session := by
  obtain ⟨gone, joined, requests, withdrawn, -⟩ := turnover.locks node
  have asked : w ∈ (s.locks.lock node).requests := List.mem_append_right _ waits
  cases left : gone w with
  | true =>
    obtain ⟨why, -⟩ := sound.linked.withdraws_waiting waits (withdrawn w asked left)
    exact .inr (.inr why)
  | false =>
    have asked' : w ∈ (s'.locks.lock node).requests := by
      rw [requests]
      exact List.mem_append_left _ (List.mem_filter.mpr ⟨asked, by simp [left]⟩)
    rcases LockState.mem_requests asked' with holds | waits'
    · exact .inr (.inl holds)
    · exact .inl waits'

/-- Two requests keep their order unless one of the handles ends. -/
lemma Turnover.order_stays (turnover : Turnover call s s') (sound : s.Sound)
    (order : [w, v].Sublist (s.locks.lock node).requests)
    (waits : w ∈ (s.locks.lock node).waiters) (opened : s'.handles.get? w.handle ≠ none) :
    [w, v].Sublist (s'.locks.lock node).requests ∨ s'.handles.get? v.handle = none := by
  obtain ⟨gone, joined, requests, withdrawn, -⟩ := turnover.locks node
  have waits' := (sound.linked.consistent.lock node).waits_behind order waits
  have stays : gone w = false := by
    by_contra left
    have withdraws := withdrawn w (order.mem (by simp)) (Bool.eq_true_of_not_eq_false left)
    exact opened (sound.linked.withdraws_waiting waits withdraws).2
  cases left : gone v with
  | true =>
    have withdraws := withdrawn v (order.mem (by simp)) left
    exact .inr (sound.linked.withdraws_waiting waits' withdraws).2
  | false =>
    refine .inl ?_
    have kept := order.filter (!gone ·)
    rw [List.filter_eq_self.mpr (by simp [stays, left])] at kept
    rw [requests]
    exact kept.trans (List.sublist_append_left ..)

/-- Whoever holds a lock is open. -/
lemma Linked.open_of_holder (linked : s.Linked) (holds : w.holder ∈ (s.locks.lock node).holders) :
    s.handles.get? w.handle ≠ none := by
  obtain ⟨r, found, -⟩ := linked.handle_of_holder holds
  rw [found]
  exact nofun

/-- Whoever waits for a lock is open. -/
lemma Linked.open_of_waiter (linked : s.Linked) (waits : w ∈ (s.locks.lock node).waiters) :
    s.handles.get? w.handle ≠ none := by
  obtain ⟨r, found, -⟩ := linked.handle_of_request node w (List.mem_append_right _ waits)
  rw [found]
  exact nofun

/-- One request is queued behind another, or its handle has ended for good. -/
def Behind (s : State) (node : NodeId) (w v : Waiter) : Prop :=
  [w, v].Sublist (s.locks.lock node).requests ∨
    v.handle < s.handles.next ∧ s.handles.get? v.handle = none

/-- As long as the earlier of two requests waits, the later one is behind it. -/
lemma Turnover.behind (turnover : Turnover call s s') (sound : s.Sound) (behind : s.Behind node w v)
    (waits : w ∈ (s.locks.lock node).waiters) (opened : s'.handles.get? w.handle ≠ none) :
    s'.Behind node w v := by
  rcases behind with order | ⟨used, ended⟩
  · obtain ⟨r, found, -⟩ := sound.linked.handle_of_request node v (order.mem (by simp))
    have used := sound.linked.fresh_handle v.handle r found
    rcases turnover.order_stays sound order waits opened with order' | ended'
    · exact .inl order'
    · exact .inr ⟨(turnover.handles.spent v.handle used).1, ended'⟩
  · obtain ⟨used', stays⟩ := turnover.handles.spent v.handle used
    exact .inr ⟨used', stays ended⟩

/-- Whoever is behind a waiter does not hold the lock. -/
lemma Behind.not_holder (behind : s.Behind node w v) (linked : s.Linked)
    (waits : w ∈ (s.locks.lock node).waiters) : v.holder ∉ (s.locks.lock node).holders := by
  intro holds
  rcases behind with order | ⟨-, ended⟩
  · have consistent := linked.consistent.lock node
    exact consistent.not_holder (consistent.waits_behind order waits) holds
  · exact linked.open_of_holder holds ended

/-- If both hold the lock, they were granted it in their order. -/
lemma Behind.hold_in_order (behind : s.Behind node w v) (linked : s.Linked)
    (holds : v.holder ∈ (s.locks.lock node).holders) :
    [w.holder, v.holder].Sublist (s.locks.lock node).holders := by
  rcases behind with order | ⟨-, ended⟩
  · exact (linked.consistent.lock node).hold_in_order order holds
  · exact absurd ended (linked.open_of_holder holds)

/-! ## Inside a call -/

variable {t : State} {grants : List Grant} {handles : List HandleId}

/-- Nothing that is done to a lock changes the order of handles that the call does not ask for, or lets
one of them in. -/
lemma LockStage.turns {l l' : LockState} {served : List Waiter} (stage : LockStage call l served l')
    (strangers : ∀ u, call.Asks u → u.handle ∉ handles) :
    (l'.turns handles).Sublist (l.turns handles) := by
  cases stage with
  | same => exact List.Sublist.refl _
  | granted asked => rw [LockState.turns_grant (strangers _ asked)]
  | queued asked => rw [LockState.turns_queue (strangers _ asked)]
  | stripped => exact LockState.turns_without _
  | promoted => rw [LockState.turns_promote]

/-- No stage changes the turns of handles that the call does not ask for. -/
lemma Stage.turns (stage : s.Stage call grants s')
    (strangers : ∀ u, call.Asks u → u.handle ∉ handles) :
    ((s'.locks.lock node).turns handles).Sublist ((s.locks.lock node).turns handles) := by
  rcases stage.lock node with once | ⟨free, -⟩
  · exact once.turns strangers
  · rw [free]
    exact List.nil_sublist _

/-- Nor does a passage. -/
lemma Passage.turns (passage : s.Passage call grants t) (node : NodeId)
    (strangers : ∀ u, call.Asks u → u.handle ∉ handles) :
    ((t.locks.lock node).turns handles).Sublist ((s.locks.lock node).turns handles) := by
  induction passage with
  | start => exact List.Sublist.refl _
  | stage before linked stage ih => exact (stage.turns strangers).trans ih

/-- A handle whose request stands has no other. -/
lemma Linked.involves_of_request (linked : s.Linked) (asked : w ∈ (s.locks.lock node).requests)
    {r : Handle} (found : s.handles.get? w.handle = some r) :
    (s.locks.lock r.node).involves w.handle = true := by
  obtain ⟨-, rfl⟩ := linked.origin_of_request found asked
  exact LockState.involves_iff.mpr ⟨w, asked, rfl⟩

/-- A handle that has ended takes no turn. -/
lemma Linked.turns_of_ended (linked : s.Linked) (ended : s.handles.get? v.handle = none) :
    (s.locks.lock node).turns [v.handle] = [] := by
  refine List.filter_eq_nil_iff.mpr fun h mem is => ?_
  obtain ⟨u, asked, rfl⟩ := List.mem_map.mp mem
  obtain ⟨r, found, -⟩ := linked.handle_of_request node u asked
  have eq : u.handle = v.handle := List.mem_singleton.mp (List.contains_iff_mem.mp is)
  rw [eq, ended] at found
  cases found

/-- Whoever is behind a waiter gets its turn after it, at every moment of a call that asks for
neither. -/
lemma Behind.inTurn (behind : s.Behind node w v) (linked : s.Linked)
    (passage : s.Passage call grants t)
    (strangers : ∀ u, call.Asks u → u.handle ∉ [w.handle, v.handle]) :
    (t.locks.lock node).InTurn w v := by
  rcases behind with order | ⟨-, ended⟩
  · have consistent := linked.consistent.lock node
    have apart : w.handle ≠ v.handle := by
      intro eq
      have unique := (order.map Waiter.handle).nodup consistent.requests_nodup
      simp [eq] at unique
    refine LockState.inTurn_of_turns apart ?_
    have turns := passage.turns node strangers
    rwa [consistent.turns_of_order order] at turns
  · -- the handle of the later request has ended and is not granted anything
    intro holds
    have strangers' : ∀ u, call.Asks u → u.handle ∉ [v.handle] := fun u asks mem =>
      strangers u asks (List.mem_cons_of_mem _ mem)
    have turns := passage.turns node strangers'
    rw [linked.turns_of_ended ended, List.sublist_nil] at turns
    have turn : v.handle ∈ (t.locks.lock node).turns [v.handle] := by
      rw [LockState.turns_eq]
      exact List.mem_append_left _ (List.mem_filter.mpr ⟨List.mem_map_of_mem holds, by simp⟩)
    rw [turns] at turn
    cases turn

end State

namespace Coordinator

variable {allowed : Set Fault} {c : Coordinator}

/-- How `lock` and `tryLock` meet a request by the owner of a handle that takes no part in the lock
of its node. -/
structure Met (c : Coordinator) (now : Instant) (session : SessionId) (handle : HandleId)
    (r : Handle) (mode : LockMode) : Prop where
  granted : (∃ g, (c.perform now (.lock session handle mode)).result = .ok (.lock (.granted g))) ↔
    (c.state.locks.lock r.node).Open mode
  tried : (∃ g, (c.perform now (.tryLock session handle mode)).result = .ok (.generation g)) ↔
    (c.state.locks.lock r.node).Open mode
  /-- If nobody is in the way, both do the same: the handle holds the lock. -/
  alike : (c.state.locks.lock r.node).Open mode → ∃ g,
    (c.perform now (.lock session handle mode)).result = .ok (.lock (.granted g)) ∧
    (c.perform now (.tryLock session handle mode)).result = .ok (.generation g) ∧
    (c.perform now (.tryLock session handle mode)).coordinator =
      (c.perform now (.lock session handle mode)).coordinator ∧
    (c.perform now (.tryLock session handle mode)).commands =
      (c.perform now (.lock session handle mode)).commands ∧
    (c.perform now (.lock session handle mode)).coordinator.state.locks =
      c.state.locks.insert r.node ((c.state.locks.lock r.node).grant ⟨session, handle⟩ mode)
  /-- Otherwise `lock` waits at the end of the queue. -/
  queued : ¬ (c.state.locks.lock r.node).Open mode →
    (c.perform now (.lock session handle mode)).result = .ok (.lock .queued) ∧
    (c.perform now (.lock session handle mode)).coordinator.state.locks =
      c.state.locks.insert r.node ((c.state.locks.lock r.node).queue ⟨session, handle, mode⟩)
  /-- And `tryLock` fails and changes nothing but the contact of its caller. -/
  busy : ¬ (c.state.locks.lock r.node).Open mode →
    (c.perform now (.tryLock session handle mode)).result = .error (.refused .busy) ∧
    c.state.Spares (some session) (c.perform now (.tryLock session handle mode)).coordinator.state

/-- A coordinator that serves meets requests by handles that take no part in the lock. -/
lemma Serves.met (serves : c.Serves) (sound : c.state.Sound) (now : Instant) {session : SessionId}
    {handle : HandleId} {r : Handle} {mode : LockMode} (owns : c.state.Owns session handle r)
    (asks : mode ≠ .none) (fresh : (c.state.locks.lock r.node).involves handle = false) :
    c.Met now session handle r mode := by
  obtain ⟨serving, usable⟩ := serves
  have admits : (c.state.locks.lock r.node).admits mode = true ↔
      (c.state.locks.lock r.node).Open mode := (sound.linked.consistent.lock r.node).admits_iff
  cases admitted : (c.state.locks.lock r.node).admits mode with
  | true =>
    have free := admits.mp admitted
    have locked : c.perform now (.lock session handle mode) = _ :=
      perform_of_ok serving usable (Op.run_lock_granted sound owns asks fresh admitted)
    have tried : c.perform now (.tryLock session handle mode) = _ :=
      perform_of_ok serving usable (Op.run_tryLock_granted sound owns asks fresh admitted)
    have told := State.sameTables_tell ({ c.state.contacted session now with
      locks := c.state.locks.insert r.node ((c.state.locks.lock r.node).grant ⟨r.session, handle⟩
        mode) }.noteHeld r.session ⟨r.node, handle⟩) handle .lockAcquired
    constructor
    case granted => exact iff_of_true ⟨_, congrArg Outcome.result locked⟩ free
    case tried => exact iff_of_true ⟨_, congrArg Outcome.result tried⟩ free
    case alike =>
      rw [locked, tried]
      refine fun _ => ⟨_, rfl, rfl, rfl, rfl, told.locks.trans ?_⟩
      rw [owns.own]
      rfl
    case queued => exact fun waits => absurd free waits
    case busy => exact fun waits => absurd free waits
  | false =>
    have waits : ¬ (c.state.locks.lock r.node).Open mode := by
      rw [← admits, admitted]
      exact Bool.false_ne_true
    have locked : c.perform now (.lock session handle mode) = _ :=
      perform_of_ok serving usable (Op.run_lock_queued sound owns asks fresh admitted)
    have harmless : ¬ Failure.busy.IsFatal := by
      rintro ⟨detail, eq⟩
      cases eq
    have tried : c.perform now (.tryLock session handle mode) = _ :=
      perform_of_refused serving usable harmless (Op.run_tryLock_busy owns asks fresh admitted)
    constructor
    case granted =>
      rw [locked]
      refine iff_of_false ?_ waits
      rintro ⟨g, eq⟩
      cases eq
    case tried =>
      rw [tried]
      refine iff_of_false ?_ waits
      rintro ⟨g, eq⟩
      cases eq
    case alike => exact fun free => absurd free waits
    case queued =>
      rw [locked]
      refine fun _ => ⟨rfl, ?_⟩
      rw [State.queued, owns.own]
      rfl
    case busy =>
      rw [tried]
      exact fun _ => ⟨rfl, (c.state.spares_contacted session now).with_outbox []⟩

/-- A call that asks for a lock on behalf of a handle that has asked already, or has ended, changes no
lock. -/
lemma locks_of_asked (sound : c.state.Sound) (now : Instant) {call : Call} {u : Waiter}
    (asks : call.Asks u) (taken : ∀ r, c.state.handles.get? u.handle = some r →
      (c.state.locks.lock r.node).involves u.handle = true) :
    (c.perform now call).coordinator.state.locks = c.state.locks := by
  have refused : ∀ {session : SessionId} {r : Handle}, c.state.Owns session u.handle r →
      (c.state.locks.lock r.node).involves u.handle ≠ false := fun owns fresh =>
    Bool.false_ne_true (fresh.symm.trans (taken _ owns.found))
  rcases perform_cases sound now call with
    same | ⟨answer, s', deed, -⟩ | ⟨e, s', ⟨kept, -⟩, left⟩
  · rw [same]
  · rcases asks with rfl | rfl
    · cases deed with
      | lockGranted owns asks fresh => exact absurd fresh (refused owns)
      | lockQueued owns asks fresh => exact absurd fresh (refused owns)
    · cases deed with
      | tryLock owns asks fresh => exact absurd fresh (refused owns)
  · rw [left]
    rcases kept with rfl | ⟨caller, -, rfl⟩ <;> rfl

/-- How a call treats two requests for the lock of a node of which the earlier one waits. -/
structure KeepsTurns (c : Coordinator) (now : Instant) (call : Call) (node : NodeId) (w v : Waiter) :
    Prop where
  /-- Afterwards the later request has not overtaken the earlier one. -/
  after : ((c.perform now call).coordinator.state.locks.lock node).InTurn w v
  /-- A call is done in stages, each of which may grant locks or take them away, -/
  staged : ∃ grants t, c.state.Passage call grants t ∧
    (c.perform now call).coordinator.state = { t with outbox := [] }
  /-- and at no moment between them has the later request overtaken the earlier one. -/
  inside : ∀ grants t, c.state.Passage call grants t →
    (∀ u, call.Asks u → u.handle ∉ [w.handle, v.handle]) → (t.locks.lock node).InTurn w v
  /-- A call that asks for a lock once more on behalf of one of the two grants none. -/
  asked : ∀ u, call.Asks u → u.handle ∈ [w.handle, v.handle] →
    (c.perform now call).coordinator.state.locks = c.state.locks

/-- As long as the earlier request waits, calls keep the turns. -/
lemma Reachable.keepsTurns (reached : c.Reachable allowed) {node : NodeId} {w v : Waiter}
    (behind : c.state.Behind node w v) (waits : w ∈ (c.state.locks.lock node).waiters)
    (fault : StoreCall → Option Fault) (now : Instant) (call : Call) :
    (c.withFaults fault).KeepsTurns now call node w v := by
  have sound : (c.withFaults fault).state.Sound := reached.sound.withStore _
  have behind' : (c.withFaults fault).state.Behind node w v := behind
  obtain ⟨sound', turnover⟩ := turnover_perform reached.sound fault now call
  constructor
  case after =>
    intro granted
    constructor
    · intro waits'
      have later := turnover.behind reached.sound behind waits (sound'.linked.open_of_waiter waits')
      exact later.not_holder sound'.linked waits' granted
    · intro holds
      have later := turnover.behind reached.sound behind waits (sound'.linked.open_of_holder holds)
      exact later.hold_in_order sound'.linked granted
  case staged => exact passage_perform sound reached.outbox_eq_nil now call
  case inside => exact fun grants t => behind'.inTurn sound.linked
  case asked =>
    intro u asks named
    refine locks_of_asked sound now asks fun r found => ?_
    rcases List.mem_pair.mp named with eq | eq
    · rw [eq] at found ⊢
      exact sound.linked.involves_of_request (List.mem_append_right _ waits) found
    · rw [eq] at found ⊢
      rcases behind' with order | ⟨-, ended⟩
      · exact sound.linked.involves_of_request (order.mem (by simp)) found
      · exact nomatch ended.symm.trans found

/-- No request barges in; a waiter goes on waiting until it is granted the lock, its handle is closed
or its session ends; and of two waiters the later one is granted the lock neither while the earlier
one waits nor ahead of it, be it between calls or in the course of one. -/
theorem Reachable.fair (reached : c.Reachable allowed) :
    (∀ (fault : StoreCall → Option Fault) now session handle r mode, c.Serves →
      c.state.Owns session handle r → mode ≠ .none →
      (c.state.locks.lock r.node).involves handle = false →
      (c.withFaults fault).Met now session handle r mode) ∧
    (∀ (fault : StoreCall → Option Fault) now call node, ∀ w ∈ (c.state.locks.lock node).waiters,
      let s' := ((c.withFaults fault).perform now call).coordinator.state
      w ∈ (s'.locks.lock node).waiters ∨ w.holder ∈ (s'.locks.lock node).holders ∨
        call = .close w.session w.handle ∨ call.Dooms c.state w.session) ∧
    ∀ node w v, [w, v].Sublist (c.state.locks.lock node).waiters →
      ∀ c', Onward allowed (fun s => w ∈ (s.locks.lock node).waiters) c c' →
        v.holder ∉ (c'.state.locks.lock node).holders ∧
        ∀ (fault : StoreCall → Option Fault) now call,
          (c'.withFaults fault).KeepsTurns now call node w v := by
  refine ⟨?_, ?_, ?_⟩
  · intro fault now session handle r mode serves owns asks fresh
    have serves' : (c.withFaults fault).Serves := serves
    have owns' : (c.withFaults fault).state.Owns session handle r :=
      ⟨owns.live, owns.found, owns.own⟩
    exact serves'.met (reached.sound.withStore _) now owns' asks fresh
  · intro fault now call node w waits
    exact (turnover_perform reached.sound fault now call).2.waiter reached.sound waits
  · intro node w v order c' led
    have start : c.state.Behind node w v := .inl (order.trans (List.sublist_append_right ..))
    have step : ∀ (s : State) call s', s.Sound → s'.Sound → State.Turnover call s s' →
        w ∈ (s.locks.lock node).waiters → w ∈ (s'.locks.lock node).waiters →
        s.Behind node w v → s'.Behind node w v := by
      intro s call s' sound sound' turnover waits waits' behind
      exact turnover.behind sound behind waits (sound'.linked.open_of_waiter waits')
    have behind := led.induction step reached start
    have reached' := led.reachable reached
    refine ⟨behind.not_holder reached'.sound.linked led.holds, fun fault now call => ?_⟩
    exact reached'.keepsTurns behind led.holds fault now call

/-- Two requests wait for the lock of one file; another handle on it has not asked. -/
def crowded : Coordinator :=
  after [.createSession, .createSession, .openHandle ⟨1⟩ "/f" .create .none (.process "a"),
    .openHandle ⟨2⟩ "/f" .create .none (.process "b"),
    .openHandle ⟨2⟩ "/f" .create .none (.process "c"),
    .openHandle ⟨2⟩ "/f" .create .none (.process "d"), .lock ⟨1⟩ ⟨1⟩ .exclusive,
    .lock ⟨2⟩ ⟨2⟩ .shared, .lock ⟨2⟩ ⟨3⟩ .exclusive]

/-- The handle that has not asked is met, and the second waiter does not hold the lock. -/
theorem fair_crowded :
    [⟨⟨2⟩, ⟨2⟩, .shared⟩, ⟨⟨2⟩, ⟨3⟩, .exclusive⟩] = (crowded.state.locks.lock ⟨2⟩).waiters ∧
    (crowded.withFaults fun _ => none).Met 0 ⟨2⟩ ⟨4⟩ ⟨⟨2⟩, ⟨2⟩, .none, .process "d"⟩ .shared ∧
    ⟨⟨2⟩, ⟨3⟩⟩ ∉ (crowded.state.locks.lock ⟨2⟩).holders := by
  have reached : crowded.Reachable Fault.refusals := reachable_after _
  have waiters : [⟨⟨2⟩, ⟨2⟩, .shared⟩, ⟨⟨2⟩, ⟨3⟩, .exclusive⟩] =
      (crowded.state.locks.lock ⟨2⟩).waiters := by
    decide +kernel
  have live : crowded.state.Live ⟨2⟩ := by
    have alive : (crowded.state.sessions.get? ⟨2⟩).any Session.isLive = true := by
      decide +kernel
    exact (Option.any_eq_true _ _).mp alive
  have opened : crowded.state.handles.get? ⟨4⟩ = some ⟨⟨2⟩, ⟨2⟩, .none, .process "d"⟩ := by
    decide +kernel
  have fresh : (crowded.state.locks.lock ⟨2⟩).involves ⟨4⟩ = false := by
    decide +kernel
  obtain ⟨met, -, order⟩ := reached.fair
  refine ⟨waiters, ?_, ?_⟩
  · exact met (fun _ => none) 0 ⟨2⟩ ⟨4⟩ _ .shared reached.serves ⟨live, opened, rfl⟩ (by decide) fresh
  · have queued : [⟨⟨2⟩, ⟨2⟩, .shared⟩, ⟨⟨2⟩, ⟨3⟩, .exclusive⟩].Sublist
        (crowded.state.locks.lock ⟨2⟩).waiters := by
      rw [← waiters]
    have first : ⟨⟨2⟩, ⟨2⟩, .shared⟩ ∈ (crowded.state.locks.lock ⟨2⟩).waiters :=
      queued.mem (List.mem_cons_self ..)
    exact (order ⟨2⟩ _ _ queued crowded (.stay first)).1

end Coordinator

end Coordination
