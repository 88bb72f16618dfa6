import Coordination.Proofs.Coordinator.Atomicity
import Coordination.Proofs.Coordinator.Passage
import Coordination.Proofs.Coordinator.SessionEnd

/-!
# Locks granted while sessions expire

Sessions whose time is up end one after another, and the end of each serves the waiters it makes
room for. These may belong to a session that is itself about to end in the same call: it is granted
the lock, told so if it is interested, and loses it when its turn comes. What it takes is that a
session before it in the order held the lock or waited for it.
-/

namespace Coordination

namespace State

variable {handle h : HandleId} {t : HandleTable} {n : Notification} {list : List HandleId}
variable {call : Call} {s s' : State} {id above : NodeId} {grants : List Grant} {r : Handle}

/-! ## What is announced -/

/-- Who is told of a lock it acquired was told so, and is interested. -/
lemma mem_acquired_telling : h ∈ acquired (telling t .lockAcquired handle) ↔
    h = handle ∧ ∃ r, t.get? handle = some r ∧
      r.interest.covers Notification.lockAcquired.interest = true := by
  rw [telling]
  cases t.get? handle with
  | none => simp [acquired]
  | some r =>
    by_cases covers : r.interest.covers Notification.lockAcquired.interest = true
    · simp [acquired, due, covers]
    · simp [acquired, due, covers]

/-- Those told of a grant are open handles that want to hear of it. -/
lemma mem_acquired_tellings : h ∈ acquired (list.flatMap (telling t .lockAcquired)) ↔
    h ∈ list ∧ ∃ r, t.get? h = some r ∧
      r.interest.covers Notification.lockAcquired.interest = true := by
  induction list with
  | nil => simp [acquired]
  | cons a rest ih =>
    rw [List.flatMap_cons, acquired_append, List.mem_append, ih, mem_acquired_telling,
      List.mem_cons, or_and_right]
    refine or_congr_left (and_congr_right ?_)
    rintro rfl
    rfl

/-- Other news told to several handles announce no grant. -/
lemma acquired_foldl_tell (other : n ≠ .lockAcquired) :
    acquired (list.foldl (fun s h => s.tell h n) s).outbox = acquired s.outbox := by
  induction list generalizing s with
  | nil => rfl
  | cons h rest ih => exact ih.trans (acquired_tell other s h)

/-- Other news told to all handles on a node announce no grant. -/
lemma acquired_tellAll (other : n ≠ .lockAcquired) (s : State) (id : NodeId) :
    acquired (s.tellAll id n).outbox = acquired s.outbox := by
  unfold tellAll
  split
  · rfl
  · exact acquired_foldl_tell other

/-- Stale handles that go are granted nothing. -/
lemma acquired_foldl_dropStale :
    acquired (list.foldl dropStale s).outbox = acquired s.outbox := by
  induction list generalizing s with
  | nil => rfl
  | cons h rest ih =>
    refine ih.trans ?_
    unfold dropStale
    split
    · rfl
    · simp [send, dropFromSession, acquired]

/-- Removing a node announces no grant. -/
lemma acquired_removed {path : String} (seated : List HandleId) :
    acquired (s.removed id above path seated).outbox = acquired s.outbox :=
  (acquired_tellAll (n := .childRemoved _) nofun _ _).trans acquired_foldl_dropStale

/-- What a stage announces are the locks it grants, to those who are interested. -/
lemma Stage.mem_acquired (stage : s.Stage call grants s') : h ∈ acquired s'.outbox ↔
    h ∈ acquired s.outbox ∨ (∃ g ∈ grants, g.waiter.handle = h) ∧ ∃ r, s.handles.get? h = some r ∧
      r.interest.covers Notification.lockAcquired.interest = true := by
  have quiet : acquired s'.outbox = acquired s.outbox → (h ∈ acquired s'.outbox ↔
      h ∈ acquired s.outbox ∨ (∃ g ∈ ([] : List Grant), g.waiter.handle = h) ∧
        ∃ r, s.handles.get? h = some r ∧
          r.interest.covers Notification.lockAcquired.interest = true) := by
    intro eq
    simp [eq]
  cases stage with
  | aside _ _ _ eq => exact quiet eq
  | grown => exact quiet (acquired_tellAll (n := .childAdded _) nofun _ _)
  | seated => exact quiet rfl
  | edited id shape other => exact quiet (acquired_tellAll other _ _)
  | granted =>
    rw [State.granted, outbox_tell, acquired_append, List.mem_append, mem_acquired_telling]
    refine or_congr_right ?_
    simp only [List.mem_singleton, exists_eq_left]
    refine ⟨?_, ?_⟩
    · rintro ⟨rfl, told⟩
      exact ⟨rfl, told⟩
    · rintro ⟨rfl, told⟩
      exact ⟨rfl, told⟩
  | queued => exact quiet rfl
  | stripped => exact quiet rfl
  | promoted node =>
    rw [outbox_promote, acquired_append, List.mem_append, mem_acquired_tellings,
      LockTable.promote_eq]
    simp
  | unseated => exact quiet (by simp [unseat, send, dropFromSession, acquired])
  | reaped => exact quiet (acquired_removed _)
  | deleted => exact quiet (acquired_removed _)

/-- The record of a handle does not change, and its identifier is not used again. -/
lemma Stage.handle_of (linked : s.Linked) (stage : s.Stage call grants s')
    (used : h < s.handles.next) : h < s'.handles.next ∧
      ∀ r, s'.handles.get? h = some r → s.handles.get? h = some r := by
  have same : s'.handles = s.handles → h < s'.handles.next ∧
      ∀ r, s'.handles.get? h = some r → s.handles.get? h = some r := by
    intro eq
    rw [eq]
    exact ⟨used, fun _ found => found⟩
  have removed : ∀ (id above : NodeId) (path : String) (seated : List HandleId),
      h < (s.removed id above path seated).handles.next ∧ ∀ r,
        (s.removed id above path seated).handles.get? h = some r → s.handles.get? h = some r := by
    intro id above path seated
    let start : State := { s with tree := s.tree.prune id above path, locks := s.locks.erase id }
    have closes := closes_dropStale (s := start) linked.handle_of_session seated
    rw [removed, (sameTables_tellAll _).handles]
    refine ⟨?_, fun r found => (closes.handle_of found).2⟩
    rw [closes.next_handle]
    exact used
  cases stage with
  | aside _ _ handles => exact same handles
  | grown => exact same (sameTables_grown ..).handles
  | seated r =>
    refine ⟨StrictOrder.trans used (Id.lt_next _), fun r' found => ?_⟩
    rw [handle_seated, if_neg] at found
    · exact found
    · rintro rfl
      exact StrictOrder.irrefl _ used
  | edited => exact same (sameTables_tellAll _).handles
  | granted => exact same (sameTables_tell ..).handles
  | queued => exact same rfl
  | stripped => exact same rfl
  | promoted node => exact same (s.sameTables_promote node).handles
  | unseated seat =>
    refine ⟨used, fun r found => ?_⟩
    obtain ⟨-, kept⟩ := (closes_close linked.handle_of_session seat).handle_of found
    exact kept
  | reaped => exact removed ..
  | deleted => exact removed ..

/-- A handle that is open after a passage and not new was open before. -/
lemma Passage.handle_of (passage : s.Passage call grants s') (used : h < s.handles.next) :
    h < s'.handles.next ∧ ∀ r, s'.handles.get? h = some r → s.handles.get? h = some r := by
  induction passage with
  | start => exact ⟨used, fun _ found => found⟩
  | stage before linked stage ih =>
    obtain ⟨used', kept⟩ := ih
    obtain ⟨used'', kept'⟩ := stage.handle_of linked used'
    exact ⟨used'', fun r found => kept r (kept' r found)⟩

/-- In the course of a call an open handle is told of the locks it is granted, if it is interested. -/
lemma Passage.mem_acquired (linked : s.Linked) (passage : s.Passage call grants s')
    (found : s.handles.get? h = some r) : h ∈ acquired s'.outbox ↔ h ∈ acquired s.outbox ∨
      (∃ g ∈ grants, g.waiter.handle = h) ∧
        r.interest.covers Notification.lockAcquired.interest = true := by
  induction passage with
  | start => simp
  | @stage gs gs' t t' before linked' stage ih =>
    obtain ⟨-, kept⟩ := before.handle_of (linked.fresh_handle h r found)
    have told : (∃ g ∈ gs', g.waiter.handle = h) → ∀ covered : Handle → Prop,
        ((∃ r, t.handles.get? h = some r ∧ covered r) ↔ covered r) := by
      rintro ⟨g, mem, rfl⟩ covered
      obtain ⟨r', open', -⟩ := stage.handle_of_grant linked' g mem
      obtain rfl : r = r' := Option.some.inj (found.symm.trans (kept r' open'))
      simp [open']
    rw [stage.mem_acquired, ih, and_congr_right fun granted => told granted _, or_assoc,
      ← or_and_right]
    simp only [List.mem_append, or_and_right, exists_or]

/-! ## Who is granted a lock -/

variable {earlier later : List SessionId} {dying : Set SessionId}

/-- A session that is to end is granted what the sessions before it in the order leave to it. -/
lemma Linked.granted_in_order (linked : s.Linked) (call : Call) (tidy : s.Tidy dying ∅)
    (found : s.handles.get? h = some r) (apart : (earlier ++ r.session :: later).Nodup)
    (ends : ∀ i ∈ earlier ++ r.session :: later, i ∈ dying) :
    ∃ grants, s.Passage call grants ((earlier ++ r.session :: later).foldl State.teardown s) ∧
      ((∃ g ∈ grants, g.waiter.handle = h) ↔ s.locks.isHolder r.node h = false ∧
        (earlier.foldl State.teardown s).locks.isHolder r.node h = true) := by
  obtain ⟨apart₁, apart₂, foreign⟩ := List.nodup_append.mp apart
  obtain ⟨fresh, apart₃⟩ := List.nodup_cons.mp apart₂
  have ends₁ := fun i mem => ends i (List.mem_append_left _ mem)
  have ends₂ := fun i mem => ends i (List.mem_append_right _ mem)
  have notBefore : ∀ i ∈ r.session :: later, i ∉ earlier := fun i mem mem' => foreign i mem' i mem rfl
  have self := notBefore r.session (List.mem_cons_self ..)
  -- the sessions before it
  obtain ⟨linked₁, tidy₁, ended₁⟩ := linked.teardownEach tidy apart₁ ends₁
  obtain ⟨grants₁, passage₁, earned₁⟩ :=
    linked.passage_teardownAll call tidy apart₁ ends₁
  have found₁ := (ended₁.handle h r).mpr ⟨found, self⟩
  -- the session itself
  have here : r.session ∈ dying \ {i | i ∈ earlier} := ⟨ends₂ _ (List.mem_cons_self ..), self⟩
  obtain ⟨linked₂, tidy₂, ended₂⟩ := linked₁.teardown tidy₁ here
  obtain ⟨grants₂, passage₂, -, apart'⟩ := linked₁.passage_teardown call tidy₁ here
  -- the sessions after it
  obtain ⟨grants₃, passage₃, earned₃⟩ := linked₂.passage_teardownAll call tidy₂ apart₃
    fun i mem => ⟨⟨ends₂ i (List.mem_cons_of_mem _ mem), notBefore i (List.mem_cons_of_mem _ mem)⟩,
      fun eq => fresh (Set.mem_singleton_iff.mp eq ▸ mem)⟩
  refine ⟨(grants₁ ++ grants₂) ++ grants₃, ?_, ?_⟩
  · rw [List.foldl_append, List.foldl_cons]
    exact (passage₁.trans passage₂).trans passage₃
  · rw [← earned₁.exact h r found₁]
    constructor
    · rintro ⟨g, mem, rfl⟩
      rcases List.mem_append.mp mem with mem | mem
      · rcases List.mem_append.mp mem with mem | mem
        · exact ⟨g, mem, rfl⟩
        · exact absurd rfl (apart' g mem r found₁)
      · -- by then the handle has ended
        obtain ⟨r', found₂⟩ := earned₃.opened g mem
        obtain ⟨found₁', other⟩ := (ended₂.handle _ r').mp found₂
        obtain rfl : r = r' := Option.some.inj (found₁.symm.trans found₁')
        exact absurd rfl other
    · rintro ⟨g, mem, eq⟩
      exact ⟨g, List.mem_append_left _ (List.mem_append_left _ mem), eq⟩

/-- What they leave to it are the waiters that fit the holders left when they are gone. -/
lemma Linked.eligible_iff (linked : s.Linked) (tidy : s.Tidy dying ∅) (apart : earlier.Nodup)
    (ends : ∀ j ∈ earlier, j ∈ dying) (found : s.handles.get? h = some r) (own : r.session ∉ earlier) :
    s.locks.isHolder r.node h = false ∧
        (earlier.foldl State.teardown s).locks.isHolder r.node h = true ↔
      ∃ w ∈ ((s.locks.lock r.node).remaining earlier).eligible, w.handle = h := by
  obtain ⟨linked₁, tidy₁, ended₁⟩ := linked.teardownEach tidy apart ends
  have exact := ended₁.exact linked linked₁ (fun k => tidy₁.settled k (Set.notMem_empty k)) rfl rfl
    rfl fun _ => rfl
  have found₁ := (ended₁.handle h r).mpr ⟨found, own⟩
  obtain ⟨n, node, -⟩ := linked₁.node_of_handle h r found₁
  have holders := exact.holders r.node n node
  constructor
  · rintro ⟨free, held⟩
    obtain ⟨x, mem, eq⟩ := LockState.isHolder_iff.mp held
    rw [holders, List.mem_append] at mem
    rcases mem with old | new
    · -- it would have been a holder before
      have held₀ : s.locks.isHolder r.node h = true :=
        LockState.isHolder_iff.mpr ⟨x, List.mem_of_mem_filter old, eq⟩
      rw [free] at held₀
      cases held₀
    · obtain ⟨w, mem, rfl⟩ := List.mem_map.mp new
      exact ⟨w, mem, eq⟩
  · rintro ⟨w, mem, rfl⟩
    have waits : w ∈ (s.locks.lock r.node).waiters := by
      refine List.mem_of_mem_filter (p := fun w => decide (w.session ∉ earlier)) ?_
      show w ∈ ((s.locks.lock r.node).remaining earlier).waiters
      rw [← exact.waiters r.node n node]
      exact List.mem_append_left _ mem
    refine ⟨(linked.consistent.lock r.node).isHolder_of_waiting waits, ?_⟩
    refine LockState.isHolder_iff.mpr ⟨w.holder, ?_, rfl⟩
    rw [holders]
    exact List.mem_append_right _ (List.mem_map_of_mem mem)

/-- A settled lock is left as it is by sessions that have made no request for it. -/
lemma Linked.isHolder_of_unasked (linked : s.Linked) (tidy : s.Tidy dying ∅) (apart : earlier.Nodup)
    (ends : ∀ j ∈ earlier, j ∈ dying)
    (unasked : ∀ w ∈ (s.locks.lock id).requests, w.session ∉ earlier) :
    (earlier.foldl State.teardown s).locks.isHolder id h = s.locks.isHolder id h := by
  obtain ⟨linked₁, tidy₁, ended₁⟩ := linked.teardownEach tidy apart ends
  have requests := (ended₁.requests_eq linked linked₁ id).trans
    (List.filter_eq_self.mpr fun w mem => by simpa using unasked w mem)
  have parties := (linked₁.consistent.lock id).parties_eq (tidy₁.settled id (Set.notMem_empty _))
    (linked.consistent.lock id) (tidy.settled id (Set.notMem_empty _)) requests
  have holders : ((earlier.foldl State.teardown s).locks.lock id).holders =
      (s.locks.lock id).holders := congrArg (·.2.1) parties
  rw [LockTable.isHolder, LockState.isHolder, holders]
  rfl

end State

namespace Coordinator

open State

variable {allowed : Set Fault} {c : Coordinator} {earlier later : List SessionId}
variable {h : HandleId} {r : Handle}

/-- Expiry succeeds where the coordinator serves. A handle of a session that expires is granted a
lock in the course of it if and only if it is among the waiters that are next when the sessions that
end before its own have left the lock; it is told so if it is interested. So it is not granted a lock
that none of these sessions holds or waits for. -/
theorem Reachable.granted_at_expiry (reached : c.Reachable allowed) (serves : c.Serves)
    (now as_of : Instant) (found : c.state.handles.get? h = some r)
    (order : (c.state.sessions.tick as_of).1 = earlier ++ r.session :: later) :
    ∃ grants s', c.state.Passage (.expireSessions as_of) grants s' ∧
      c.perform now (.expireSessions as_of) = ⟨.ok (.expired (c.state.sessions.tick as_of).1),
        { c with state := { s' with outbox := [] } }, s'.outbox⟩ ∧
      ((∃ g ∈ grants, g.waiter.handle = h) ↔
        ∃ w ∈ ((c.state.locks.lock r.node).remaining earlier).eligible, w.handle = h) ∧
      (h ∈ acquired s'.outbox ↔ r.interest.covers Notification.lockAcquired.interest = true ∧
        ∃ w ∈ ((c.state.locks.lock r.node).remaining earlier).eligible, w.handle = h) ∧
      ((∀ w ∈ (c.state.locks.lock r.node).requests, w.session ∉ earlier) →
        ∀ g ∈ grants, g.waiter.handle ≠ h) := by
  have sound := reached.sound
  obtain ⟨linked, tidy⟩ := sound.ticked as_of
  have apart := c.state.sessions.nodup_tick as_of
  rw [order] at tidy apart
  have ends := fun i (mem : i ∈ earlier) => List.mem_append_left (r.session :: later) mem
  obtain ⟨apart₁, -, foreign⟩ := List.nodup_append.mp apart
  have own : r.session ∉ earlier := fun mem => foreign _ mem _ (List.mem_cons_self ..) rfl
  have first : c.state.Passage (.expireSessions as_of) [] (c.state.ticked as_of) :=
    sound.linked.passage_aside rfl rfl rfl rfl
  obtain ⟨grants, second, granted⟩ :=
    linked.granted_in_order (.expireSessions as_of) tidy found apart fun i mem => mem
  have run : (Call.op now (.expireSessions as_of)).run c.state =
      (.ok (.expired (c.state.sessions.tick as_of).1), c.state.expired as_of) :=
    Op.run_expireSessions sound as_of
  have expired : c.state.expired as_of =
      (earlier ++ r.session :: later).foldl State.teardown (c.state.ticked as_of) :=
    congrArg (List.foldl State.teardown (c.state.ticked as_of)) order
  have passage := first.trans second
  rw [List.nil_append, ← expired] at passage
  have eligible : (∃ g ∈ grants, g.waiter.handle = h) ↔
      ∃ w ∈ ((c.state.locks.lock r.node).remaining earlier).eligible, w.handle = h :=
    granted.trans (linked.eligible_iff tidy apart₁ ends found own)
  have told := passage.mem_acquired sound.linked found
  rw [reached.outbox_eq_nil] at told
  refine ⟨grants, _, passage, perform_of_ok serves.1 serves.2 run, eligible, ?_, ?_⟩
  · rw [told, eligible, and_comm]
    exact or_iff_right List.not_mem_nil
  · intro unasked g mem eq
    obtain ⟨free, held⟩ := granted.mp ⟨g, mem, eq⟩
    rw [linked.isHolder_of_unasked tidy apart₁ ends unasked, free] at held
    cases held

/-- Two sessions expire together; one holds the lock of a file that the other waits for. -/
def rivals : List Call :=
  [.createSession, .createSession, .openHandle ⟨1⟩ "/f" .create .all (.process "a"),
    .openHandle ⟨2⟩ "/f" .none .all (.process "b"), .lock ⟨1⟩ ⟨1⟩ .exclusive,
    .lock ⟨2⟩ ⟨2⟩ .exclusive]

/-- The waiter is granted the lock of the holder with whom it expires. -/
theorem granted_at_expiry_rivals : ∃ r, (after rivals).state.handles.get? ⟨2⟩ = some r ∧
    ((after rivals).state.sessions.tick 100000000).1 = [⟨1⟩] ++ r.session :: [] ∧
    ∃ grants s', (after rivals).state.Passage (.expireSessions 100000000) grants s' ∧
      ∃ g ∈ grants, g.waiter.handle = ⟨2⟩ := by
  have reached : (after rivals).Reachable Fault.refusals := reachable_after _
  have seat : ((after rivals).state.handles.get? ⟨2⟩).map (fun r => (r.session, r.node)) =
      some (⟨2⟩, ⟨2⟩) := by
    decide +kernel
  obtain ⟨r, found, eq⟩ := Option.map_eq_some_iff.mp seat
  obtain ⟨own, node⟩ := Prod.mk.inj eq
  have order : ((after rivals).state.sessions.tick 100000000).1 = [⟨1⟩] ++ r.session :: [] := by
    rw [own]
    decide +kernel
  have next : (((after rivals).state.locks.lock r.node).remaining [⟨1⟩]).eligible.map
      Waiter.handle = [⟨2⟩] := by
    rw [node]
    decide +kernel
  obtain ⟨grants, s', passage, -, granted, -⟩ :=
    reached.granted_at_expiry reached.serves 0 100000000 found order
  refine ⟨r, found, order, grants, s', passage, granted.mpr (List.mem_map.mp ?_)⟩
  rw [next]
  exact List.mem_singleton.mpr rfl

/-- The second of them is told that it has acquired the lock, in the call in which it expires. -/
theorem told_while_expiring : (after rivals).Reachable Fault.refusals ∧
    ∃ r, (after rivals).state.handles.get? ⟨2⟩ = some r ∧
      r.session ∈ ((after rivals).state.sessions.tick 100000000).1 ∧
      ⟨2⟩ ∈ acquired ((after rivals).perform 0 (.expireSessions 100000000)).commands := by
  have seat : ((after rivals).state.handles.get? ⟨2⟩).map Handle.session = some ⟨2⟩ := by
    decide +kernel
  obtain ⟨r, found, own⟩ := Option.map_eq_some_iff.mp seat
  refine ⟨reachable_after _, r, found, ?_, ?_⟩
  · rw [own]
    decide +kernel
  · decide +kernel

end Coordinator

end Coordination
