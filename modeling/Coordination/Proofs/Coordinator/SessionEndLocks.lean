import Coordination.Proofs.Coordinator.Reports
import Coordination.Proofs.Coordinator.SessionEnd

/-!
# What a session that ends announces of its locks

A session that ends first gives up the locks that it holds, then the waiters of other sessions are
served, and only then do its handles end. So the first to be announced are the locks that it loses,
and the next those that others get; either can be read off the tables before and after.
-/

namespace Coordination

namespace State

/-- Whether a handle holds the lock of its node. -/
def holding (s : State) (handle : HandleId) : Bool :=
  (s.handles.get? handle).any fun r => s.locks.isHolder r.node handle

/-- The handles of a session that hold a lock are told that they lose it. -/
def releases (s : State) (session : SessionId) : List Command :=
  ((s.handlesOf session).filter s.holding).flatMap (telling s.handles .lockReleased)

/-- The waiters for the lock of a node that hold it in a later state, in the order of the queue. -/
def promoted (s s' : State) (id : NodeId) : List Waiter :=
  (s.locks.lock id).waiters.filter (·.holder ∈ (s'.locks.lock id).holders)

/-- Node after node, those waiters are told that they hold the lock. -/
def promotions (s s' : State) : List Command :=
  s.tree.nodes.keys.flatMap fun id =>
    ((s.promoted s' id).map Waiter.handle).flatMap (telling s.handles .lockAcquired)

variable {s s' : State} {list : List HandleId} {handle h : HandleId} {r : Handle} {id : NodeId}
variable {session : SessionId} {dying : Set SessionId}

/-! ## Locks that are given up -/

/-- A handle that gives up its lock is told if it held it. -/
lemma outbox_yield (s : State) (handle : HandleId) : (s.yield handle).outbox =
    s.outbox ++ if s.holding handle then telling s.handles .lockReleased handle else [] := by
  cases found : s.handles.get? handle with
  | none => simp [State.yield, holding, found]
  | some r =>
    rw [yield_of_get? found, holding, found, Option.any_some]
    split
    · exact outbox_tell ..
    · exact (List.append_nil _).symm

/-- A handle that leaves its lock does not take others with it. -/
lemma Linked.lock_yield (linked : s.Linked) (found : s.handles.get? handle = some r) (id : NodeId) :
    (s.yield handle).locks.lock id = (s.locks.lock id).without (· = handle) := by
  rw [(sameTables_yield found).locks, State.strip, LockTable.lock_strip]
  split
  case isTrue eq => rw [eq]
  case isFalse other =>
    refine ((linked.consistent.lock id).without_eq_self fun w mem => ?_).symm
    rw [decide_eq_false_iff_not]
    rintro rfl
    exact other (linked.origin_of_request found mem).2.symm

/-- The other handles hold what they held. -/
lemma Linked.holding_yield (linked : s.Linked) (found : s.handles.get? handle = some r)
    (other : h ≠ handle) : (s.yield handle).holding h = s.holding h := by
  rw [holding, holding, (linked.yields found).handles]
  refine congrArg (Option.any · _) (funext fun r' => ?_)
  rw [(sameTables_yield found).locks, State.strip, LockTable.isHolder_strip]
  simp [other]

/-- Those that held a lock are told in the order in which they give up. -/
lemma Linked.outbox_surrendered (linked : s.Linked) (touched : FinSet NodeId) (apart : list.Nodup)
    (seated : ∀ h ∈ list, ∃ r, s.handles.get? h = some r) :
    (s.surrendered touched list).2.outbox =
      s.outbox ++ (list.filter s.holding).flatMap (telling s.handles .lockReleased) := by
  induction list generalizing s touched with
  | nil => simp [State.surrendered]
  | cons h rest ih =>
    obtain ⟨fresh, apart⟩ := List.nodup_cons.mp apart
    obtain ⟨r, found⟩ := seated h (List.mem_cons_self ..)
    have same : rest.filter (s.yield h).holding = rest.filter s.holding := by
      refine List.filter_congr fun h' mem => linked.holding_yield found ?_
      rintro rfl
      exact fresh mem
    have handles := (linked.yields found).handles
    rw [State.surrendered, ih (linked.yield found) _ apart, outbox_yield, same, handles,
      List.filter_cons, List.append_assoc]
    · split <;> simp
    · rw [handles]
      exact fun h' mem => seated h' (List.mem_cons_of_mem h mem)

/-- The locks after several handles have given up theirs. -/
lemma Linked.lock_surrendered (linked : s.Linked) (touched : FinSet NodeId)
    (seated : ∀ h ∈ list, ∃ r, s.handles.get? h = some r) (id : NodeId) :
    (s.surrendered touched list).2.locks.lock id = (s.locks.lock id).without (· ∈ list) := by
  induction list generalizing s touched with
  | nil => exact ((linked.consistent.lock id).without_eq_self fun w _ => by simp).symm
  | cons h rest ih =>
    obtain ⟨r, found⟩ := seated h (List.mem_cons_self ..)
    rw [State.surrendered, ih (linked.yield found), linked.lock_yield found,
      LockState.without_without]
    · refine congrArg _ (funext fun h' => ?_)
      simp
    · rw [(linked.yields found).handles]
      exact fun h' mem => seated h' (List.mem_cons_of_mem h mem)

/-! ## Waiters that are served -/

/-- Those served are told node by node. -/
lemma outbox_served (nodes : List NodeId) (apart : nodes.Nodup) :
    (nodes.foldl State.promote s).outbox = s.outbox ++ nodes.flatMap fun id =>
      ((s.locks.lock id).promote.1.map Waiter.handle).flatMap
        (telling s.handles .lockAcquired) := by
  induction nodes generalizing s with
  | nil => simp
  | cons k rest ih =>
    obtain ⟨fresh, apart⟩ := List.nodup_cons.mp apart
    have same := s.sameTables_promote k
    have handles : (s.promote k).handles = s.handles := same.handles
    -- the locks of the nodes that are still to be served are as before
    have locks : ∀ id ∈ rest, (s.promote k).locks.lock id = s.locks.lock id := by
      intro id mem
      have other : id ≠ k := by
        rintro rfl
        exact fresh mem
      rw [same.locks]
      exact (LockTable.lock_modify rfl id).trans (if_neg other)
    rw [List.foldl_cons, ih apart, outbox_promote, List.flatMap_cons, List.append_assoc, handles]
    refine congrArg _ (congrArg _ (List.flatMap_congr fun id mem => ?_))
    rw [locks id mem]

/-- A lock once a session has given it up and before anybody is served. -/
lemma Linked.lock_surrendered_all (linked : s.Linked) (session : SessionId) (id : NodeId) :
    (s.surrendered .empty (s.handlesOf session)).2.locks.lock id =
      (s.locks.lock id).remaining [session] := by
  rw [linked.lock_surrendered .empty linked.seated_handlesOf]
  refine (LockState.remaining_eq_without fun w mem => ?_).symm
  obtain ⟨r, found, owner, -⟩ := linked.handle_of_request id w mem
  simp [linked.mem_handlesOf, found, owner]

/-- The waiters that hold a lock after the end of a session are those that are served when the
session has given it up. -/
lemma Linked.promoted_teardown (linked : s.Linked) (tidy : s.Tidy dying ∅) (ends : session ∈ dying)
    (id : NodeId) : s.promoted (s.teardown session) id =
      ((s.locks.lock id).remaining [session]).promote.1 := by
  obtain ⟨linked', tidy', ended⟩ := linked.teardown tidy ends
  have requests : ((s.teardown session).locks.lock id).requests =
      (s.locks.lock id).requests.filter (·.session ∉ [session]) := by
    rw [ended.requests_eq linked linked' id]
    refine List.filter_congr fun w _ => Bool.eq_iff_iff.mpr ?_
    simp
  have settled' := tidy'.settled id (Set.notMem_empty id)
  have holders : ((s.teardown session).locks.lock id).holders =
      ((s.locks.lock id).remaining [session]).promote.2.holders :=
    congrArg (·.2.1) (linked.parties_remaining linked' settled' requests)
  -- a waiter of the session itself does not hold the lock in the end
  have others : ∀ w : Waiter, w.holder ∈ ((s.teardown session).locks.lock id).holders →
      w.session ∉ [session] := by
    intro w holds
    have asked := LockState.request_mem_requests holds
    rw [requests, List.mem_filter, decide_eq_true_eq] at asked
    exact asked.2
  rw [promoted, ← (linked.consistent_remaining [session] id).served_eq, ← holders,
    LockState.remaining, List.filter_filter]
  refine List.filter_congr fun w _ => Bool.eq_iff_iff.mpr ?_
  simpa using others w

/-- What is announced before the handles of a session end. -/
lemma Linked.outbox_relieved (linked : s.Linked) (tidy : s.Tidy dying ∅) (ends : session ∈ dying) :
    (s.relieved session).outbox =
      s.outbox ++ s.releases session ++ s.promotions (s.teardown session) := by
  obtain ⟨-, tidy₁, yields⟩ := linked.surrenders tidy ends
  have apart : (s.handlesOf session).Nodup := (linked.relieved tidy ends).2.1.apart
  have handles : ((s.surrendered .empty (s.handlesOf session)).2.clearNotes session).handles =
    s.handles := yields.handles
  have first : ((s.surrendered .empty (s.handlesOf session)).2.clearNotes session).outbox =
      s.outbox ++ s.releases session :=
    linked.outbox_surrendered .empty apart linked.seated_handlesOf
  rw [State.relieved, outbox_served _ FinMap.keys_nodup, first, handles, promotions]
  refine congrArg _ ?_
  have locks : ∀ id, ((s.surrendered .empty (s.handlesOf session)).2.clearNotes session).locks.lock
      id = (s.locks.lock id).remaining [session] := linked.lock_surrendered_all session
  simp only [locks, linked.promoted_teardown tidy ends]
  refine flatMap_eq_of_ascending FinMap.keys_ascending FinMap.keys_ascending fun id speaks => ?_
  -- nobody is served at a lock that was not given up, nor at one that nobody asked for
  refine iff_of_true (FinMap.mem_keys.mpr ?_) (FinMap.mem_keys.mpr ?_)
  · by_contra out
    have settled := tidy₁.settled id out
    rw [linked.lock_surrendered_all] at settled
    exact speaks (by rw [settled.promote_eq_nil]; rfl)
  · cases node : s.tree.get? id with
    | some n => exact FinMap.mem_iff.mpr ⟨n, node⟩
    | none =>
      refine absurd ?_ speaks
      have free : s.locks.lock id = .free := by
        refine LockTable.lock_of_none (Option.eq_none_iff_forall_ne_some.mpr fun l entry => ?_)
        obtain ⟨n, found⟩ := linked.node_of_lock id l entry
        rw [node] at found
        cases found
      rw [free]
      rfl

end State

end Coordination
