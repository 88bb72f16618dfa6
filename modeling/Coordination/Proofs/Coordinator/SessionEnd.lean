import Coordination.Proofs.Coordinator.StoreIndependence
import Coordination.Proofs.Coordinator.Safety

/-!
# The exact effect of the end of sessions

When sessions end, be it one that is destroyed or all whose time is up, they go with their handles,
idle ephemeral nodes go, and at every node that is left the other sessions are served as if the
ending ones had never asked. This has a closed form, so the order in which sessions end does not
matter to the locks.
-/

namespace Coordination

namespace LockState

/-- A lock without the holders and waiters of some sessions, before anyone is served. -/
def remaining (l : LockState) (ended : List SessionId) : LockState :=
  { l with
    mode := if (l.holders.filter (·.session ∉ ended)).isEmpty then .none else l.mode
    holders := l.holders.filter (·.session ∉ ended)
    waiters := l.waiters.filter (·.session ∉ ended) }

variable {l : LockState} {ended : List SessionId}

/-- Sessions leave a lock through their handles. -/
lemma remaining_eq_without {gone : HandleId → Bool}
    (own : ∀ w ∈ l.requests, gone w.handle = true ↔ w.session ∈ ended) :
    l.remaining ended = l.without gone := by
  have holders : l.holders.filter (·.session ∉ ended) = l.holders.filter (!gone ·.handle) := by
    refine List.filter_congr fun h mem => Bool.eq_iff_iff.mpr ?_
    have := own _ (request_mem_requests mem)
    simp only [Holder.request] at this
    simp [← this]
  have waiters : l.waiters.filter (·.session ∉ ended) = l.waiters.filter (!gone ·.handle) := by
    refine List.filter_congr fun w mem => Bool.eq_iff_iff.mpr ?_
    have := own w (List.mem_append_right _ mem)
    simp [← this]
  rw [remaining, holders, waiters]
  rfl

/-- Any two ways to settle what remains of a lock end with the same parties. -/
lemma parties_of_requests_remaining {l' : LockState} {gone : HandleId → Bool} (c : l.Consistent)
    (own : ∀ w ∈ l.requests, gone w.handle = true ↔ w.session ∈ ended) (c' : l'.Consistent)
    (s' : l'.Settled) (requests : l'.requests = l.requests.filter (·.session ∉ ended)) :
    l'.parties = (l.remaining ended).promote.2.parties := by
  have remains := remaining_eq_without own
  have consistent : (l.remaining ended).Consistent := remains ▸ c.without gone
  -- both locks are consistent and settled, so it is enough that they are asked for the same
  refine c'.parties_eq s' consistent.promote.1 settled_promote ?_
  rw [consistent.promote.2, requests, remains, requests_without]
  refine List.filter_congr fun w mem => Bool.eq_iff_iff.mpr ?_
  have := own w mem
  simp [← this]

end LockState

namespace State

/-- Some sessions have ended and nothing else has happened. -/
structure Ended (ended : List SessionId) (s s' : State) : Prop where
  /-- Exactly these sessions are gone. -/
  session : ∀ i, (s'.sessions.get? i).isSome ↔ (s.sessions.get? i).isSome ∧ i ∉ ended
  /-- Exactly their handles are gone; the others are open on the same node as before and with the
  same interest. -/
  handle : ∀ h r, s'.handles.get? h = some r ↔ s.handles.get? h = some r ∧ r.session ∉ ended
  /-- A node that is gone was ephemeral. -/
  node : ∀ i n, s.tree.get? i = some n → s'.tree.get? i = none → n.ephemeral = true
  /-- No node is new. -/
  old_node : ∀ i n', s'.tree.get? i = some n' → ∃ n, s.tree.get? i = some n
  /-- At every node that is left, the eligible waiters have joined the remaining holders. -/
  holders : ∀ i n', s'.tree.get? i = some n' → (s'.locks.lock i).holders =
    ((s.locks.lock i).remaining ended).holders ++
      ((s.locks.lock i).remaining ended).eligible.map Waiter.holder
  /-- The other remaining waiters go on waiting in their order. -/
  waiters : ∀ i n', s'.tree.get? i = some n' →
    ((s.locks.lock i).remaining ended).eligible ++ (s'.locks.lock i).waiters =
      ((s.locks.lock i).remaining ended).waiters
  /-- The mode is that of the holders. -/
  mode : ∀ i n', s'.tree.get? i = some n' →
    (s'.locks.lock i).mode = ((s.locks.lock i).remaining ended).promote.2.mode

/-- Whether a handle belongs to one of the sessions. -/
def owned (s : State) (ended : List SessionId) (handle : HandleId) : Bool :=
  (s.handles.get? handle).any (·.session ∈ ended)

variable {s s' s₀ : State} {ended : List SessionId}

/-- The requests of sessions are those of their handles. -/
lemma Linked.owned_iff (linked : s.Linked) (ended : List SessionId) (id : NodeId) :
    ∀ w ∈ (s.locks.lock id).requests, s.owned ended w.handle = true ↔ w.session ∈ ended := by
  intro w mem
  obtain ⟨r, found, owner, -⟩ := linked.handle_of_request id w mem
  simp [owned, found, owner]

/-- What is left of a lock when sessions have ended is consistent. -/
lemma Linked.consistent_remaining (linked : s.Linked) (ended : List SessionId) (id : NodeId) :
    ((s.locks.lock id).remaining ended).Consistent := by
  rw [LockState.remaining_eq_without (linked.owned_iff ended id)]
  exact (linked.consistent.lock id).without _

/-- A lock that has lost the requests of some sessions and is settled has the parties that are
served when those sessions leave. -/
lemma Linked.parties_remaining (linked : s.Linked) (linked' : s'.Linked) {id : NodeId}
    (settled' : (s'.locks.lock id).Settled) (requests : (s'.locks.lock id).requests =
      (s.locks.lock id).requests.filter (·.session ∉ ended)) :
    (s'.locks.lock id).parties = ((s.locks.lock id).remaining ended).promote.2.parties :=
  LockState.parties_of_requests_remaining (linked.consistent.lock id) (linked.owned_iff ended id)
    (linked'.consistent.lock id) settled' requests

/-- What ended sessions leave behind is determined by the requests of the others. -/
lemma Ends.exact (ends : s₀.Ends {i | i ∈ ended} s') (linked : s.Linked) (linked' : s'.Linked)
    (settled' : ∀ i, (s'.locks.lock i).Settled) (tree : s₀.tree = s.tree)
    (locks : s₀.locks = s.locks) (handles : s₀.handles = s.handles)
    (sessions : ∀ i, (s₀.sessions.get? i).isSome = (s.sessions.get? i).isSome) :
    Ended ended s s' := by
  have parties : ∀ i n', s'.tree.get? i = some n' → (s'.locks.lock i).parties =
      ((s.locks.lock i).remaining ended).promote.2.parties := by
    intro i n' found'
    refine linked.parties_remaining linked' (settled' i) ?_
    rw [ends.requests i n' found', locks]
    refine List.filter_congr fun w _ => Bool.eq_iff_iff.mpr ?_
    simp
  have served : ∀ i, ((s.locks.lock i).remaining ended).promote.1 =
      ((s.locks.lock i).remaining ended).eligible :=
    fun i => (linked.consistent_remaining ended i).promote_eligible
  have parts := fun i => LockState.serve_parts (l := (s.locks.lock i).remaining ended)
    ((s.locks.lock i).remaining ended).waiters
  constructor
  case session =>
    intro i
    rw [ends.session, sessions]
    rfl
  case handle =>
    intro h r
    rw [ends.handle, handles]
    rfl
  case node =>
    intro i n found gone
    rcases ends.node i n (tree ▸ found) with ⟨-, ephemeral⟩ | ⟨n', found', -⟩
    · exact ephemeral
    · rw [gone] at found'
      cases found'
  case old_node =>
    intro i n' found'
    rw [← tree]
    exact ends.old_node i n' found'
  case holders =>
    intro i n' found'
    rw [← served i]
    exact (congrArg (·.2.1) (parties i n' found')).trans (parts i).1
  case waiters =>
    intro i n' found'
    rw [← served i]
    have waiters : (s'.locks.lock i).waiters =
        ((s.locks.lock i).remaining ended).promote.2.waiters :=
      congrArg (·.2.2) (parties i n' found')
    rw [waiters]
    exact (parts i).2
  case mode => exact fun i n' found' => congrArg Prod.fst (parties i n' found')

/-- The end of a session by request is exact. -/
lemma ended_destroyed (sound : s.Sound) (session : SessionId) :
    Ended [session] s ((s.marked session).teardown session) := by
  obtain ⟨linked, tidy⟩ := sound.marked session
  obtain ⟨-, -, ends⟩ := linked.teardown tidy rfl
  have one : {i : SessionId | i ∈ [session]} = {session} := by simp
  rw [← one] at ends
  have sound' := sound.destroyed session
  refine ends.exact sound.linked sound'.linked sound'.settled rfl rfl rfl fun i => ?_
  have same := congrArg Option.isSome ((s.sameOwners_marked session).handles i)
  rwa [Option.isSome_map, Option.isSome_map] at same

/-- Sessions that expire together may end in any order. -/
lemma ended_in_order (sound : s.Sound) (now : Instant) {order : List SessionId}
    (same : order.Perm (s.sessions.tick now).1) :
    (order.foldl State.teardown (s.ticked now)).Sound ∧
      Ended (s.sessions.tick now).1 s (order.foldl State.teardown (s.ticked now)) := by
  obtain ⟨linked, tidy⟩ := sound.ticked now
  have members : {i | i ∈ (s.sessions.tick now).1} = {i | i ∈ order} := by
    ext i
    exact same.symm.mem_iff
  rw [members] at tidy
  obtain ⟨sound', ends⟩ := linked.teardownAll tidy (same.symm.nodup (s.sessions.nodup_tick now))
  rw [← members] at ends
  refine ⟨sound', ends.exact sound.linked sound'.linked sound'.settled rfl rfl rfl fun i => ?_⟩
  have look : (s.ticked now).sessions.get? i = _ := FinMap.get?_mapValues _
  rw [look, Option.isSome_map]
  rfl

/-- What is left of the locks depends only on which sessions have ended. -/
lemma Ended.parties_eq {s₁ s₂ : State} (e₁ : Ended ended s s₁) (e₂ : Ended ended s s₂) {i : NodeId}
    {n₁ n₂ : Node} (found₁ : s₁.tree.get? i = some n₁) (found₂ : s₂.tree.get? i = some n₂) :
    (s₁.locks.lock i).parties = (s₂.locks.lock i).parties := by
  have mode := (e₁.mode i n₁ found₁).trans (e₂.mode i n₂ found₂).symm
  have holders := (e₁.holders i n₁ found₁).trans (e₂.holders i n₂ found₂).symm
  have waiters := (e₁.waiters i n₁ found₁).trans (e₂.waiters i n₂ found₂).symm
  rw [LockState.parties, LockState.parties, mode, holders, List.append_cancel_left waiters]

/-- What is handed over does not matter. -/
lemma Ended.with_outbox (e : Ended ended s s') (outbox : List Command) :
    Ended ended s { s' with outbox } :=
  ⟨e.session, e.handle, e.node, e.old_node, e.holders, e.waiters, e.mode⟩

end State

namespace Coordinator

variable {c : Coordinator}

/-- The coordinator over another store. -/
def withStore (c : Coordinator) (store : Store) : Coordinator :=
  { c with state := c.state.withStore store }

/-- Whatever the store, a call succeeds, leaves the same tables and the store as it is, and hands
over the same commands. -/
def Succeeds (c : Coordinator) (now : Instant) (call : Call) (answer : Answer) (s' : State) : Prop :=
  ∃ commands, ∀ store, (c.withStore store).perform now call =
    ⟨.ok answer, { c with state := s'.withStore store }, commands⟩

/-- A call succeeds over every store if its program does. -/
lemma succeeds_of_run (serves : c.Serves) {now : Instant} {call : Call} {answer : Answer} {s' : State}
    (run : ∀ store, (call.op now).run (c.state.withStore store) = (.ok answer, s'.withStore store)) :
    c.Succeeds now call answer { s' with outbox := [] } :=
  ⟨s'.outbox, fun store => perform_of_ok (c := c.withStore store) serves.1 serves.2 (run store)⟩

/-- The end of sessions always succeeds, without a call to the store, and has exactly the effect
that its closed form describes; the order in which sessions end is of no consequence to the
locks. -/
theorem Reachable.session_end_exact (reached : c.Reachable Fault.refusals) (now : Instant) :
    (∀ session, c.state.Live session → ∃ s', c.state.Ended [session] s' ∧
      c.Succeeds now (.destroySession session) .done s') ∧
    ∀ as_of, ∃ s', c.state.Ended (c.state.sessions.tick as_of).1 s' ∧
      c.Succeeds now (.expireSessions as_of) (.expired (c.state.sessions.tick as_of).1) s' ∧
      ∀ order : List SessionId, order.Perm (c.state.sessions.tick as_of).1 → ∃ s'' : State,
        (order.forM Op.teardown).run (c.state.ticked as_of) = (.ok (), s'') ∧
        ∀ i n' n'', s'.tree.get? i = some n' → s''.tree.get? i = some n'' →
          (s''.locks.lock i).parties = (s'.locks.lock i).parties := by
  have sound := reached.sound
  constructor
  · intro session live
    have ended := State.ended_destroyed sound session
    refine ⟨_, ended.with_outbox [], succeeds_of_run reached.serves fun store => ?_⟩
    have run : (Call.op now (.destroySession session)).run (c.state.withStore store) =
        (.ok .done, ((c.state.withStore store).marked session).teardown session) :=
      Op.run_destroySession (sound.withStore store) live
    exact run.trans (congrArg _ (State.blind_teardown session (c.state.marked session) store))
  · intro as_of
    obtain ⟨-, ended⟩ := State.ended_in_order sound as_of (.refl _)
    refine ⟨_, ended.with_outbox [], succeeds_of_run reached.serves fun store => ?_, ?_⟩
    · have run : (Call.op now (.expireSessions as_of)).run (c.state.withStore store) =
          (.ok (.expired (c.state.sessions.tick as_of).1), (c.state.withStore store).expired as_of) :=
        Op.run_expireSessions (sound.withStore store) as_of
      exact run.trans (congrArg _ (State.blind_expired as_of c.state store))
    · intro order same
      obtain ⟨linked, tidy⟩ := sound.ticked as_of
      have members : {i | i ∈ (c.state.sessions.tick as_of).1} = {i | i ∈ order} := by
        ext i
        exact same.symm.mem_iff
      -- the closed form names the set of the sessions, not their order
      have apart := same.symm.nodup (c.state.sessions.nodup_tick as_of)
      obtain ⟨-, ended'⟩ := State.ended_in_order sound as_of same
      refine ⟨_, Op.run_teardownAll linked (members ▸ tidy) apart, fun i n' n'' found' found'' => ?_⟩
      exact ended'.parties_eq ended found'' found'

/-- The session of a holder ends, and all is as described. -/
theorem session_end_exact_contended : contended.state.Live ⟨1⟩ ∧ ∃ s',
    contended.state.Ended [⟨1⟩] s' ∧ contended.Succeeds 0 (.destroySession ⟨1⟩) .done s' := by
  have live : contended.state.Live ⟨1⟩ := by
    have alive : (contended.state.sessions.get? ⟨1⟩).any Session.isLive = true := by
      decide +kernel
    exact (Option.any_eq_true _ _).mp alive
  have reached : contended.Reachable Fault.refusals := reachable_after _
  exact ⟨live, (reached.session_end_exact 0).1 ⟨1⟩ live⟩

end Coordinator

end Coordination
