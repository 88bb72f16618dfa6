import Coordination.Proofs.Coordinator.Runs

/-!
# Handles and requests that come and go

Which calls end an open handle, and which calls add a request to a lock or take one out.
`HandleTurnover` and `LockTurnover` say so of two states of the tables with a call between them.
They are proved once, deed by deed; whatever is said about the fate of a handle or of a request over
a run follows from them.
-/

namespace Coordination

namespace Call

/-- The call ends a session: it destroys it, or it expires leases and finds its time up. -/
def Dooms (call : Call) (s : State) (session : SessionId) : Prop :=
  call = .destroySession session ∨
    ∃ as_of, call = .expireSessions as_of ∧ session ∈ (s.sessions.tick as_of).1

/-- The call ends a handle: its owner closes it, its node is deleted, or its session ends. -/
def Closes (call : Call) (s : State) (handle : HandleId) (r : Handle) : Prop :=
  call = .close r.session handle ∨
    (∃ caller path, call = .delete caller path ∧ s.tree.find? path = some r.node) ∨
    call.Dooms s r.session

/-- The call makes a request for a lock. -/
def Asks (call : Call) (w : Waiter) : Prop :=
  call = .lock w.session w.handle w.mode ∨ call = .tryLock w.session w.handle w.mode

/-- The call takes a request out of a lock: a holder releases it, or it goes with its handle, which
is closed or whose session ends. -/
def Withdraws (call : Call) (s : State) (node : NodeId) (w : Waiter) (s' : State) : Prop :=
  call = .release w.session w.handle ∧ w.holder ∈ (s.locks.lock node).holders ∨
    (call = .close w.session w.handle ∨ call.Dooms s w.session) ∧
      s'.handles.get? w.handle = none

end Call

namespace State

/-- Handles end only by calls that end them, others stay as they are, and identifiers are not used
again. -/
structure HandleTurnover (call : Call) (s s' : State) : Prop where
  open_handle : ∀ h r, s.handles.get? h = some r → s'.handles.get? h = some r ∨
    s'.handles.get? h = none ∧ call.Closes s h r
  spent : ∀ h, h < s.handles.next → h < s'.handles.next ∧
    (s.handles.get? h = none → s'.handles.get? h = none)

/-- The requests for a lock stay in their order; some are withdrawn, and new ones join at the end. -/
structure LockTurnover (call : Call) (s s' : State) (node : NodeId) (gone : Waiter → Bool)
    (joined : List Waiter) : Prop where
  requests : (s'.locks.lock node).requests =
    (s.locks.lock node).requests.filter (!gone ·) ++ joined
  withdrawn : ∀ w ∈ (s.locks.lock node).requests, gone w = true → call.Withdraws s node w s'
  asked : ∀ w ∈ joined, call.Asks w

/-- What a call may do to handles and to the requests for every lock. -/
structure Turnover (call : Call) (s s' : State) : Prop where
  handles : HandleTurnover call s s'
  locks : ∀ node, ∃ gone joined, LockTurnover call s s' node gone joined

variable {s s' s₁ : State} {call : Call} {gone : Set HandleId} {ended : Set SessionId}
variable {node : NodeId} {handle : HandleId} {r : Handle} {mode : LockMode} {now : Instant}

/-! ## Handles

A call may have recorded the contact of its caller before it touches the handles, hence `s₁`. -/

/-- No handle has come or gone. -/
lemma handleTurnover_of_eq (handles : s'.handles = s.handles) : HandleTurnover call s s' where
  open_handle := fun _ _ found => .inl (handles ▸ found)
  spent := fun _ used => ⟨handles ▸ used, fun absent => handles ▸ absent⟩

/-- A new handle gets an identifier that was not used. -/
lemma handleTurnover_seated (linked : s.Linked) (handles : s₁.handles = s.handles) (r : Handle) :
    HandleTurnover call s (s₁.seated r) := by
  have look : ∀ h, (s₁.seated r).handles.get? h =
      if h = s.handles.next then some r else s.handles.get? h := by
    intro h
    rw [handle_seated, handles]
  constructor
  case open_handle =>
    intro h r' found
    refine .inl ?_
    rw [look, if_neg, found]
    rintro rfl
    exact StrictOrder.irrefl _ (linked.fresh_handle _ r' found)
  case spent =>
    intro h used
    have next : (s₁.seated r).handles.next = s.handles.next.next :=
      congrArg (fun t => t.next.next) handles
    refine ⟨next ▸ StrictOrder.trans used (Id.lt_next _), fun absent => ?_⟩
    rw [look, if_neg, absent]
    rintro rfl
    exact StrictOrder.irrefl _ used

/-- Handles have gone that the call closes. -/
lemma handleTurnover_of_closes (handles : s₁.handles = s.handles) (closes : s₁.Closes gone s')
    (why : ∀ h ∈ gone, ∀ r, s.handles.get? h = some r → call.Closes s h r) :
    HandleTurnover call s s' where
  open_handle := by
    intro h r found
    by_cases mem : h ∈ gone
    · exact .inr ⟨closes.ended h mem, why h mem r found⟩
    · exact .inl ((closes.stays h mem).trans (handles ▸ found))
  spent := by
    intro h used
    refine ⟨closes.next_handle ▸ handles ▸ used, fun absent => ?_⟩
    by_cases mem : h ∈ gone
    · exact closes.ended h mem
    · exact (closes.stays h mem).trans (handles ▸ absent)

/-- When sessions end, exactly their handles do. -/
lemma Ends.closes (ends : s.Ends ended s') :
    (∀ h r, s.handles.get? h = some r → r.session ∈ ended → s'.handles.get? h = none) ∧
      ∀ h, s.handles.get? h = none → s'.handles.get? h = none := by
  constructor
  · intro h r found mem
    refine Option.eq_none_iff_forall_ne_some.mpr fun r' found' => ?_
    obtain ⟨same, out⟩ := (ends.handle h r').mp found'
    obtain rfl : r = r' := Option.some.inj (found.symm.trans same)
    exact out mem
  · intro h absent
    refine Option.eq_none_iff_forall_ne_some.mpr fun r' found' => ?_
    rw [((ends.handle h r').mp found').1] at absent
    cases absent

/-- Handles have gone with their sessions, which the call ends. -/
lemma handleTurnover_of_ends (handles : s₁.handles = s.handles) (ends : s₁.Ends ended s')
    (doomed : ∀ i ∈ ended, call.Dooms s i) : HandleTurnover call s s' where
  open_handle := by
    intro h r found
    have found₁ : s₁.handles.get? h = some r := handles ▸ found
    by_cases mem : r.session ∈ ended
    · exact .inr ⟨ends.closes.1 h r found₁ mem, .inr (.inr (doomed _ mem))⟩
    · exact .inl ((ends.handle h r).mpr ⟨found₁, mem⟩)
  spent := by
    intro h used
    exact ⟨ends.next_handle ▸ handles ▸ used, fun absent => ends.closes.2 h (handles ▸ absent)⟩

/-! ## Requests -/

/-- No request has come or gone. -/
lemma lockTurnover_of_eq
    (requests : (s'.locks.lock node).requests = (s.locks.lock node).requests) :
    ∃ gone joined, LockTurnover call s s' node gone joined := by
  refine ⟨fun _ => false, [], ?_, fun _ _ left => (nomatch left), fun _ mem => (nomatch mem)⟩
  rw [requests, List.append_nil]
  exact (List.filter_eq_self.mpr fun _ _ => rfl).symm

/-- A request joins the lock of a node. -/
lemma lockTurnover_of_insert {k : NodeId} {l : LockState} {w : Waiter}
    (locks : s'.locks = s.locks.insert k l) (joins : l.requests = (s.locks.lock k).requests ++ [w])
    (asks : call.Asks w) (node : NodeId) :
    ∃ gone joined, LockTurnover call s s' node gone joined := by
  have look : s'.locks.lock node = if node = k then l else s.locks.lock node := by
    rw [locks, LockTable.lock_insert]
  by_cases eq : node = k
  · subst eq
    refine ⟨fun _ => false, [w], ?_, fun _ _ left => absurd left Bool.false_ne_true,
      fun v mem => ?_⟩
    · rw [look, if_pos rfl, joins]
      exact congrArg (· ++ [w]) (List.filter_eq_self.mpr fun _ _ => rfl).symm
    · rwa [List.mem_singleton.mp mem]
  · rw [if_neg eq] at look
    exact lockTurnover_of_eq (congrArg LockState.requests look)

/-- A handle leaves its lock. -/
lemma lockTurnover_of_leave (requests : (s'.locks.lock node).requests =
      (s.locks.lock node).requests.filter (·.handle ≠ handle))
    (why : ∀ w ∈ (s.locks.lock node).requests, w.handle = handle → call.Withdraws s node w s') :
    ∃ gone joined, LockTurnover call s s' node gone joined := by
  refine ⟨(·.handle = handle), [], ?_, fun w mem left => why w mem (of_decide_eq_true left),
    fun _ mem => (nomatch mem)⟩
  rw [requests, List.append_nil]
  exact List.filter_congr fun w mem => by simp

/-- The requests of sessions that end go with their handles. -/
lemma lockTurnover_of_ends (linked : s₁.Linked) (locks : s₁.locks = s.locks) (linked' : s'.Linked)
    (ends : s₁.Ends ended s') (doomed : ∀ i ∈ ended, call.Dooms s i) (node : NodeId) :
    ∃ gone joined, LockTurnover call s s' node gone joined := by
  classical
  refine ⟨(·.session ∈ ended), [], ?_, fun w mem left => .inr ?_, fun _ mem => (nomatch mem)⟩
  · rw [ends.requests_eq linked linked', List.append_nil, locks]
    exact List.filter_congr fun w mem => by simp
  · have left : w.session ∈ ended := of_decide_eq_true left
    obtain ⟨r, found, owner, -⟩ := linked.handle_of_request node w (locks ▸ mem)
    exact ⟨.inr (doomed _ left), ends.closes.1 w.handle r found (owner ▸ left)⟩

/-! ## What calls do -/

/-- A call that leaves handles and locks alone may have changed the rest and told others. -/
lemma turnover_of_sameTables (same : s₁.SameTables s') (handles : s₁.handles = s.handles)
    (locks : s₁.locks = s.locks) : Turnover call s s' where
  handles := handleTurnover_of_eq (same.handles.trans handles)
  locks := by
    intro node
    refine lockTurnover_of_eq (congrArg (fun t => (LockTable.lock t node).requests) ?_)
    exact same.locks.trans locks

/-- The end of sessions takes their handles and requests. -/
lemma turnover_of_ends (linked : s₁.Linked) (handles : s₁.handles = s.handles)
    (locks : s₁.locks = s.locks) (sound' : s'.Sound) (ends : s₁.Ends ended s')
    (doomed : ∀ i ∈ ended, call.Dooms s i) : Turnover call s s' where
  handles := handleTurnover_of_ends handles ends doomed
  locks := lockTurnover_of_ends linked locks sound'.linked ends doomed

/-- Closing a handle takes it and its request. -/
lemma Sound.turnover_closed (sound : s.Sound) {session : SessionId} {r : Handle}
    (owns : s.Owns session handle r) : Turnover (.close session handle) s
      ((s.contacted session now).closed handle r) := by
  have linked := (sound.contacted session now).linked
  have handles := ((s.contacted session now).frame_vacated handle r).2.1
  obtain ⟨lost, sheds, -⟩ := (sound.contacted session now).sheds_closed owns.found
  refine ⟨handleTurnover_of_closes handles sheds.closes ?_, fun node => ?_⟩
  · rintro _ rfl r' found'
    obtain rfl : r = r' := Option.some.inj (owns.found.symm.trans found')
    exact .inl (by rw [owns.own])
  · have requests := (sheds.requests_eq node).trans (linked.requests_vacated owns.found node)
    refine lockTurnover_of_leave requests ?_
    rintro w mem rfl
    obtain ⟨own, -⟩ := sound.linked.origin_of_request owns.found mem
    refine .inr ⟨.inl ?_, sheds.closes.ended _ rfl⟩
    rw [← own, owns.own]

/-- Deleting a node takes the handles on it, which made no request. -/
lemma Sound.turnover_deleted (sound : s.Sound) {session : SessionId} {path : String}
    {id above : NodeId} {n : Node} {st : Store} (checked : s.tree.checkRemove path s.locks = .ok id)
    (node : s.tree.get? id = some n) (foundAbove : s.tree.find? (Path.parent path) = some above) :
    Turnover (.delete session path) s
      (((s.contacted session now).withStore st).deleted id above path n) := by
  obtain ⟨-, -, found, -⟩ := Tree.checkRemove_eq_ok_iff.mp checked
  obtain ⟨lost, sheds⟩ :=
    ((sound.contacted session now).withStore st).sheds_deleted checked node foundAbove
  have handles : ((s.contacted session now).withStore st).handles = s.handles := rfl
  refine ⟨handleTurnover_of_closes handles sheds.closes ?_, fun k => lockTurnover_of_eq ?_⟩
  · rintro h mem r seated
    -- the handles that end are those on the node
    have seat : r.node = id := (sound.linked.mem_node_iff seated node).mp mem
    exact .inr (.inl ⟨session, path, rfl, seat ▸ found⟩)
  · exact sheds.requests_eq k

/-- A grant on the spot adds the request that was made. -/
lemma Sound.turnover_granted (sound : s.Sound) {session : SessionId} {r : Handle}
    (owns : s.Owns session handle r) (admitted : (s.locks.lock r.node).admits mode = true)
    (asks : call.Asks ⟨session, handle, mode⟩) :
    Turnover call s ((s.contacted session now).granted handle r mode) := by
  let noted := ({ s.contacted session now with
    locks := s.locks.insert r.node ((s.locks.lock r.node).grant ⟨r.session, handle⟩ mode) }.noteHeld
      r.session ⟨r.node, handle⟩)
  have told := noted.sameTables_tell handle .lockAcquired
  refine ⟨handleTurnover_of_eq told.handles, lockTurnover_of_insert told.locks ?_ asks⟩
  rw [(sound.linked.consistent.lock r.node).requests_grant (sound.settled r.node) _ admitted, owns.own]
  rfl

/-- A release takes the request of the holder. -/
lemma Sound.turnover_released (sound : s.Sound) {session : SessionId} {r : Handle}
    (owns : s.Owns session handle r) (held : s.locks.isHolder r.node handle = true) :
    Turnover (.release session handle) s ((s.contacted session now).released handle r) := by
  have linked := (sound.contacted session now).linked
  have handles := ((s.contacted session now).frame_released handle r).2.1
  refine ⟨handleTurnover_of_eq handles, fun node => ?_⟩
  refine lockTurnover_of_leave (linked.requests_released owns.found node) ?_
  rintro w mem rfl
  obtain ⟨own, rfl⟩ := sound.linked.origin_of_request owns.found mem
  obtain ⟨x, holds, eq⟩ := LockState.isHolder_iff.mp held
  have origin := sound.linked.origin_of_holder (eq ▸ owns.found) holds
  have same : w.holder = x := by
    cases x
    exact congr (congrArg Holder.mk (own.symm.trans origin.1)) eq.symm
  refine .inl ⟨?_, same ▸ holds⟩
  rw [← own, owns.own]

/-- What is done adds and ends nothing that the call does not ask for. -/
lemma Sound.turnover (sound : s.Sound) {answer : Answer} (done : s.Done now call answer s') :
    Turnover call s s' := by
  cases done with
  | createSession => exact turnover_of_sameTables (.refl _) rfl rfl
  | keepalive => exact turnover_of_sameTables (.refl _) rfl rfl
  | @destroySession session live =>
    obtain ⟨linked, tidy⟩ := sound.marked session
    obtain ⟨-, -, ends⟩ := linked.teardown tidy rfl
    refine turnover_of_ends linked rfl rfl (sound.destroyed session) ends ?_
    rintro _ rfl
    exact .inl rfl
  | expireSessions as_of =>
    obtain ⟨linked, tidy⟩ := sound.ticked as_of
    obtain ⟨sound', ends⟩ := linked.teardownAll tidy (s.sessions.nodup_tick as_of)
    exact turnover_of_ends linked rfl rfl sound' ends fun i mem => .inr ⟨as_of, rfl, mem⟩
  | @openHandle session =>
    have handles : (s.contacted session now).handles = s.handles := rfl
    exact ⟨handleTurnover_seated sound.linked handles _, fun _ => lockTurnover_of_eq rfl⟩
  | @openNew session path flags interest callback above st =>
    have grown := sameTables_grown ((s.contacted session now).withStore st) above path
      (flags.meets .directory) (flags.meets .ephemeral)
    refine ⟨handleTurnover_seated sound.linked grown.handles _, fun node => lockTurnover_of_eq ?_⟩
    exact congrArg (fun t => (LockTable.lock t node).requests) grown.locks
  | close owns => exact sound.turnover_closed owns
  | mkdir => exact turnover_of_sameTables (sameTables_grown ..) rfl rfl
  | delete live checked node foundAbove => exact sound.turnover_deleted checked node foundAbove
  | pathExists => exact turnover_of_sameTables (.refl _) rfl rfl
  | readdir => exact turnover_of_sameTables (.refl _) rfl rfl
  | attrSet => exact turnover_of_sameTables (sameTables_tellAll _) rfl rfl
  | attrGet => exact turnover_of_sameTables (.refl _) rfl rfl
  | attrDel => exact turnover_of_sameTables (sameTables_tellAll _) rfl rfl
  | attrExists => exact turnover_of_sameTables (.refl _) rfl rfl
  | attrList => exact turnover_of_sameTables (.refl _) rfl rfl
  | lockGranted owns asks fresh admitted => exact sound.turnover_granted owns admitted (.inl rfl)
  | lockQueued owns =>
    refine ⟨handleTurnover_of_eq rfl, lockTurnover_of_insert rfl (LockState.requests_queue _) ?_⟩
    exact .inl (by rw [owns.own])
  | tryLock owns asks fresh admitted => exact sound.turnover_granted owns admitted (.inr rfl)
  | release owns held => exact sound.turnover_released owns held
  | lockInfo => exact turnover_of_sameTables (.refl _) rfl rfl
  | sizes => exact turnover_of_sameTables (.refl _) rfl rfl
  | checkLocks => exact turnover_of_sameTables (.refl _) rfl rfl

end State

namespace Coordinator

variable {allowed : Set Fault} {during : State → Prop} {c c' : Coordinator}

/-- Whatever the store does, a call leaves sound tables and adds and ends only what it asks for. -/
lemma turnover_perform (sound : c.state.Sound) (fault : StoreCall → Option Fault) (now : Instant)
    (call : Call) : ((c.withFaults fault).perform now call).coordinator.state.Sound ∧
      State.Turnover call c.state ((c.withFaults fault).perform now call).coordinator.state := by
  have sound₁ : (c.withFaults fault).state.Sound := sound.withStore _
  rcases perform_cases sound₁ now call with
    same | ⟨answer, s', deed, eq⟩ | ⟨e, s', ⟨kept, -⟩, eq⟩
  · rw [same]
    exact ⟨sound₁, State.turnover_of_sameTables (.refl _) rfl rfl⟩
  · rw [eq]
    obtain ⟨handles, locks⟩ := sound₁.turnover deed
    refine ⟨(sound₁.done deed).with_outbox [], ⟨handles.open_handle, handles.spent⟩, fun node => ?_⟩
    obtain ⟨gone, joined, requests, withdrawn, asked⟩ := locks node
    exact ⟨gone, joined, requests, withdrawn, asked⟩
  · rw [eq]
    rcases kept with rfl | ⟨caller, -, rfl⟩
    · exact ⟨sound₁.with_outbox [], State.turnover_of_sameTables (.refl _) rfl rfl⟩
    · exact ⟨(sound₁.contacted caller now).with_outbox [],
        State.turnover_of_sameTables (.refl _) rfl rfl⟩

/-- What one call keeps while a condition holds before and after it, a run keeps while the condition
holds. -/
lemma Onward.induction {P : State → Prop}
    (step : ∀ (s : State) call s', s.Sound → s'.Sound → State.Turnover call s s' →
      during s → during s' → P s → P s')
    (reached : c.Reachable allowed) (start : P c.state) (led : Onward allowed during c c') :
    P c'.state := by
  induction led with
  | stay => exact start
  | @perform c₁ led now call fault may holds ih =>
    have sound := (led.reachable reached).sound
    obtain ⟨sound', turnover⟩ := turnover_perform sound fault now call
    exact step _ call _ sound sound' turnover led.holds holds ih

end Coordinator

end Coordination
