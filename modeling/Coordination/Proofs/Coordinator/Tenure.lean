import Coordination.Proofs.Coordinator.Safety
import Coordination.Proofs.Coordinator.Turnover
import Coordination.Proofs.Lock.Order

/-!
# What an owner keeps

An open handle and the lock it holds stay with their owner until the owner gives them up, with two
exceptions for which the owner need not be asked: its session may end, and anyone may delete a node
that nobody has locked. Neither the end of other sessions nor the removal of idle nodes takes
anything away.
-/

namespace Coordination

namespace State

/-- What a call leaves to the owner of an open handle. -/
structure Tenure (call : Call) (s s' : State) (handle : HandleId) (r : Handle) : Prop where
  /-- The handle loses its lock only if it is released or closed, or with its session. -/
  lock : s.locks.isHolder r.node handle = true → s'.locks.isHolder r.node handle = false →
    call = .release r.session handle ∨ call = .close r.session handle ∨ call.Dooms s r.session
  /-- The handle ends only if it is closed, with its node, or with its session. -/
  ended : s'.handles.get? handle = none → call.Closes s handle r
  /-- If it stays open it has the session, node, interest and callback it had. -/
  same : ∀ r', s'.handles.get? handle = some r' → r' = r
  /-- A call in the name of nobody or of another session that does not end the session of the handle
  leaves it its lock, and leaves it open unless it deletes the node, which must not be locked. -/
  others : call.caller? ≠ some r.session → ¬ call.Dooms s r.session →
    (s.locks.isHolder r.node handle = true →
      s'.locks.isHolder r.node handle = true ∧ s'.handles.get? handle = some r) ∧
    (s'.handles.get? handle = some r ∨
      ∃ caller path, call = .delete caller path ∧ s.tree.find? path = some r.node)

variable {s s' : State} {call : Call} {handle : HandleId} {r : Handle}

/-- A handle that is still open is the one it was. -/
lemma HandleTurnover.same (turnover : HandleTurnover call s s')
    (found : s.handles.get? handle = some r) {r' : Handle}
    (found' : s'.handles.get? handle = some r') : r' = r := by
  rcases turnover.open_handle handle r found with stays | ⟨gone, -⟩
  · exact Option.some.inj (found'.symm.trans stays)
  · rw [gone] at found'
    cases found'

/-- A holder whose lock is gone has withdrawn its request. -/
lemma Turnover.withdraws (turnover : Turnover call s s') (sound : s.Sound) (sound' : s'.Sound)
    (found : s.handles.get? handle = some r) (held : s.locks.isHolder r.node handle = true)
    (lost : s'.locks.isHolder r.node handle = false) :
    call.Withdraws s r.node ⟨r.session, handle, (s.locks.lock r.node).mode⟩ s' := by
  obtain ⟨⟨session, h⟩, holds, rfl⟩ := LockState.isHolder_iff.mp held
  obtain ⟨own, -⟩ := sound.linked.origin_of_holder found holds
  obtain ⟨gone, joined, requests, withdrawn, -⟩ := turnover.locks r.node
  rw [own]
  refine withdrawn _ (LockState.request_mem_requests holds) ?_
  by_contra stays
  have holds' := (sound.linked.consistent.lock r.node).holder_stays
    (sound'.linked.consistent.lock r.node) (sound'.settled r.node) requests holds
    (Bool.eq_false_iff.mpr stays)
  have held' : s'.locks.isHolder r.node h = true := LockState.isHolder_iff.mpr ⟨_, holds', rfl⟩
  rw [lost] at held'
  cases held'

/-- What a call may do to an open handle and to the lock it holds. -/
lemma Turnover.tenure_of_open (turnover : Turnover call s s') (sound : s.Sound) (sound' : s'.Sound)
    (found : s.handles.get? handle = some r) : Tenure call s s' handle r := by
  have lock : s.locks.isHolder r.node handle = true → s'.locks.isHolder r.node handle = false →
      call = .release r.session handle ∨ call = .close r.session handle ∨
        call.Dooms s r.session := by
    intro held lost
    rcases turnover.withdraws sound sound' found held lost with
      ⟨released, -⟩ | ⟨closed | doomed, -⟩
    · exact .inl released
    · exact .inr (.inl closed)
    · exact .inr (.inr doomed)
  refine ⟨lock, ?_, fun r' found' => turnover.handles.same found found', ?_⟩
  · intro ended
    rcases turnover.handles.open_handle handle r found with stays | ⟨-, closes⟩
    · rw [ended] at stays
      cases stays
    · exact closes
  · intro other spared
    constructor
    · intro held
      have held' : s'.locks.isHolder r.node handle = true := by
        by_contra lost
        rcases lock held (Bool.eq_false_iff.mpr lost) with rfl | rfl | doomed
        · exact other rfl
        · exact other rfl
        · exact spared doomed
      -- whoever holds a lock does so through an open handle
      obtain ⟨⟨session, h⟩, holds, rfl⟩ := LockState.isHolder_iff.mp held'
      obtain ⟨r', found', -⟩ := sound'.linked.handle_of_holder holds
      exact ⟨held', turnover.handles.same found found' ▸ found'⟩
    · rcases turnover.handles.open_handle handle r found with stays | ⟨-, rfl | deleted | doomed⟩
      · exact .inl stays
      · exact absurd rfl other
      · exact .inr deleted
      · exact absurd doomed spared

end State

namespace Coordinator

variable {allowed : Set Fault} {c : Coordinator} {handle : HandleId} {r : Handle}

/-- Whatever the store does, no call takes a handle or its lock away from the owner except as
`Tenure` says, and a handle never changes its session, node or interest in any run. -/
theorem Reachable.tenure (reached : c.Reachable allowed)
    (opened : c.state.handles.get? handle = some r) :
    (∀ (fault : StoreCall → Option Fault) now call, State.Tenure call c.state
      ((c.withFaults fault).perform now call).coordinator.state handle r) ∧
    ∀ c', Onward allowed (fun _ => True) c c' →
      ∀ r', c'.state.handles.get? handle = some r' → r' = r := by
  constructor
  · intro fault now call
    obtain ⟨sound', turnover⟩ := turnover_perform reached.sound fault now call
    exact turnover.tenure_of_open reached.sound sound' opened
  · intro c' led
    let kept : State → Prop := fun s => handle < s.handles.next ∧
      ∀ r', s.handles.get? handle = some r' → r' = r
    have start : kept c.state := by
      refine ⟨reached.sound.linked.fresh_handle handle r opened, fun r' found => ?_⟩
      exact Option.some.inj (found.symm.trans opened)
    have step : ∀ (s : State) call s', s.Sound → s'.Sound → State.Turnover call s s' →
        True → True → kept s → kept s' := by
      rintro s call s' - - turnover - - ⟨used, same⟩
      obtain ⟨used', spent⟩ := turnover.handles.spent handle used
      refine ⟨used', fun r' found' => ?_⟩
      -- once the handle has ended, its identifier is not used again
      cases found : s.handles.get? handle with
      | none =>
        rw [spent found] at found'
        cases found'
      | some r₁ =>
        obtain rfl := same r₁ found
        exact turnover.handles.same found found'
    exact (led.induction step reached start).2

/-- The second client can neither take the lock of the first nor delete the file it is on. -/
theorem tenure_contended : contended.state.handles.get? ⟨1⟩ = some ⟨⟨1⟩, ⟨2⟩, .none, .process "a"⟩ ∧
    State.Tenure (.delete ⟨2⟩ "/f") contended.state
      ((contended.withFaults fun _ => none).perform 0 (.delete ⟨2⟩ "/f")).coordinator.state ⟨1⟩
        ⟨⟨1⟩, ⟨2⟩, .none, .process "a"⟩ := by
  have opened : contended.state.handles.get? ⟨1⟩ = some ⟨⟨1⟩, ⟨2⟩, .none, .process "a"⟩ := by
    decide +kernel
  have reached : contended.Reachable ∅ := reachable_after _
  exact ⟨opened, (reached.tenure opened).1 (fun _ => none) 0 (.delete ⟨2⟩ "/f")⟩

end Coordinator

end Coordination
