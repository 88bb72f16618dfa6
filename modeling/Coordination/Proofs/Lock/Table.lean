import Coordination.Lock.Table
import Coordination.Proofs.Failure
import Coordination.Proofs.Lock.Discipline
import Coordination.Proofs.Maps

/-!
# The discipline of the lock table

Every operation of the table works on the lock of one node. `Consistent` says that all locks are
consistent; then `release` and `withdraw?` take a handle out of its lock, a request is granted or
queued, and a request that fails leaves the table as it was.
-/

namespace Coordination.LockTable

/-- All locks of the table are consistent. -/
def Consistent (t : LockTable) : Prop := ∀ node l, t.get? node = some l → l.Consistent

/-- Takes a handle out of the lock of a node. -/
def strip (t : LockTable) (node : NodeId) (handle : HandleId) : LockTable :=
  t.modify node (·.without (· = handle))

variable {t : LockTable} {node : NodeId} {handle : HandleId} {session : SessionId} {mode : LockMode}

/-- The lock of a node with an entry. -/
lemma lock_of_get? {l : LockState} (found : t.get? node = some l) : t.lock node = l := by
  rw [lock, found, Option.getD_some]

/-- The lock of a node without an entry is free. -/
lemma lock_of_none (absent : t.get? node = none) : t.lock node = .free := by
  rw [lock, absent, Option.getD_none]

/-- Every lock of a consistent table is consistent. -/
lemma Consistent.lock (c : t.Consistent) (node : NodeId) : (t.lock node).Consistent := by
  cases found : t.get? node with
  | none =>
    rw [lock_of_none found]
    exact LockState.consistent_free
  | some l =>
    rw [lock_of_get? found]
    exact c node l found

/-- Only a lock with an entry has participants. -/
lemma get?_of_involves (involved : (t.lock node).involves handle = true) :
    t.get? node = some (t.lock node) := by
  cases found : t.get? node with
  | none =>
    rw [lock_of_none found] at involved
    cases involved
  | some l => rw [lock_of_get? found]

/-- A change that leaves a free lock alone reaches the lock of one node, whether or not it has an
entry. -/
lemma lock_modify {f : LockState → LockState} (free : f .free = .free) (node' : NodeId) :
    lock (t.modify node f) node' = if node' = node then f (t.lock node) else t.lock node' := by
  rw [LockTable.lock, FinMap.get?_modify]
  split
  case isTrue eq =>
    subst eq
    cases found : t.get? node' with
    | none =>
      rw [lock_of_none found, free]
      rfl
    | some l =>
      rw [lock_of_get? found]
      rfl
  case isFalse => rfl

/-- The locks after one was put in place. -/
lemma lock_insert (l : LockState) (node' : NodeId) :
    lock (t.insert node l) node' = if node' = node then l else t.lock node' := by
  rw [LockTable.lock, FinMap.get?_insert]
  split <;> rfl

/-- The locks of the other nodes after an entry was dropped. -/
lemma lock_erase {node' : NodeId} (other : node' ≠ node) :
    lock (FinMap.erase t node) node' = t.lock node' := by
  rw [LockTable.lock, FinMap.get?_erase, if_neg other, LockTable.lock]

/-- A change that keeps a lock consistent keeps the table consistent. -/
lemma Consistent.modify (c : t.Consistent) {f : LockState → LockState}
    (keeps : ∀ l : LockState, l.Consistent → (f l).Consistent) : Consistent (t.modify node f) := by
  intro node' l found
  obtain ⟨l', found', rfl⟩ := FinMap.get?_modify_eq_some.mp found
  split
  case isTrue => exact keeps l' (c node' l' found')
  case isFalse => exact c node' l' found'

/-- The locks after a handle was taken out of one. -/
lemma lock_strip (node' : NodeId) :
    (t.strip node handle).lock node' =
      if node' = node then (t.lock node).without (· = handle) else t.lock node' :=
  lock_modify rfl node'

/-- A holder's release takes it out of the lock. -/
lemma Consistent.release_eq (c : t.Consistent) (held : t.isHolder node handle = true) :
    ∃ holder, t.release node handle = .ok (holder, t.strip node handle) := by
  have involved : (t.lock node).involves handle = true := by
    rw [LockState.involves, Bool.or_eq_true]
    exact .inl held
  have entry := get?_of_involves involved
  obtain ⟨holder, eq⟩ := (c.lock node).release?_eq held
  refine ⟨holder, ?_⟩
  rw [release, entry, Option.bind_some, eq, strip, FinMap.modify_of_get? entry]

/-- A waiter's withdrawal takes it out of the lock. -/
lemma Consistent.withdraw?_eq (c : t.Consistent) (waiting : (t.lock node).isWaiting handle = true) :
    ∃ w, t.withdraw? node handle = some (w, t.strip node handle) := by
  have involved : (t.lock node).involves handle = true := by
    rw [LockState.involves, Bool.or_eq_true]
    exact .inr waiting
  have entry := get?_of_involves involved
  obtain ⟨w, eq⟩ := (c.lock node).withdraw?_eq waiting
  refine ⟨w, ?_⟩
  rw [withdraw?, entry, Option.bind_some, eq, strip, FinMap.modify_of_get? entry]
  rfl

/-- Nothing is withdrawn for a handle that does not wait. -/
lemma withdraw?_eq_none (idle : (t.lock node).isWaiting handle = false) :
    t.withdraw? node handle = none := by
  cases found : t.get? node with
  | none => rw [withdraw?, found]; rfl
  | some l =>
    rw [lock_of_get? found] at idle
    rw [withdraw?, found, Option.bind_some, LockState.withdraw?_eq_none idle]
    rfl

/-- No release succeeds for a handle that does not hold the lock. -/
lemma release_of_not_holder (idle : t.isHolder node handle = false) :
    t.release node handle = .error (.notLockHolder handle) := by
  cases found : t.get? node with
  | none => rw [release, found]; rfl
  | some l =>
    have none : l.holders.find? (·.handle = handle) = none := by
      rw [List.find?_eq_none]
      intro h mem eq
      rw [isHolder, lock_of_get? found, LockState.isHolder_iff.mpr ⟨h, mem, by simpa using eq⟩] at idle
      cases idle
    rw [release, found, Option.bind_some, LockState.release?, none]
    rfl

/-- Taking out a handle that is not involved changes nothing. -/
lemma Consistent.strip_eq_self (c : t.Consistent) (idle : (t.lock node).involves handle = false) :
    t.strip node handle = t := by
  refine FinMap.modify_eq_self fun l found => ?_
  rw [lock_of_get? found] at idle
  refine (c node l found).without_eq_self fun w mem => ?_
  simpa using LockState.ne_of_not_involves idle mem

/-- Serving the waiters of a node changes its lock alone. -/
lemma promote_eq : t.promote node =
    ((t.lock node).promote.1.map (Grant.mk node), t.modify node (·.promote.2)) := by
  cases found : t.get? node with
  | none =>
    rw [LockTable.promote, found, lock_of_none found, FinMap.modify_of_none found]
    rfl
  | some l => rw [LockTable.promote, found, lock_of_get? found, FinMap.modify_of_get? found]

/-- The locks after the waiters of one were served. -/
lemma lock_promote (t : LockTable) (node node' : NodeId) :
    (t.promote node).2.lock node' =
      if node' = node then (t.lock node).promote.2 else t.lock node' := by
  rw [promote_eq]
  exact lock_modify rfl node'

/-- A lock that does not admit a newcomer has an entry. -/
lemma get?_of_not_admits (refused : (t.lock node).admits mode = false) :
    t.get? node = some (t.lock node) := by
  cases found : t.get? node with
  | none =>
    rw [lock_of_none found] at refused
    cases refused
  | some l => rw [lock_of_get? found]

/-- What becomes of a request by a handle that is not involved depends on whether it is admitted. -/
lemma request_of_fresh (asks : mode ≠ .none) (fresh : (t.lock node).involves handle = false) :
    t.request node session handle mode =
      if (t.lock node).admits mode then
        (.ok (.granted ((t.lock node).grant ⟨session, handle⟩ mode).generation),
          t.insert node ((t.lock node).grant ⟨session, handle⟩ mode))
      else (.ok .queued, t.insert node ((t.lock node).queue ⟨session, handle, mode⟩)) := by
  rw [request, if_neg asks]
  simp only [fresh, Bool.false_eq_true, if_false]

/-- An attempt by a handle that is not involved succeeds if the lock admits it. -/
lemma tryRequest_of_fresh (asks : mode ≠ .none) (fresh : (t.lock node).involves handle = false) :
    t.tryRequest node session handle mode =
      if (t.lock node).admits mode then
        (.ok ((t.lock node).grant ⟨session, handle⟩ mode).generation,
          t.insert node ((t.lock node).grant ⟨session, handle⟩ mode))
      else (.error .busy, t) := by
  rw [tryRequest, if_neg asks]
  simp only [fresh, Bool.false_eq_true, if_false]
  split
  case isTrue => rfl
  case isFalse refused =>
    rw [FinMap.insert_eq_self (get?_of_not_admits (Bool.eq_false_iff.mpr refused))]

/-- A request fails and changes nothing, is granted, or is queued. -/
lemma request_cases {result : Except Failure LockStatus} {t' : LockTable}
    (eq : t.request node session handle mode = (result, t')) :
    (∃ why, result = .error why ∧ t' = t ∧ ¬ why.IsFatal) ∨
    (mode ≠ .none ∧ (t.lock node).involves handle = false ∧ (t.lock node).admits mode = true ∧
      result = .ok (.granted ((t.lock node).grant ⟨session, handle⟩ mode).generation) ∧
      t' = t.insert node ((t.lock node).grant ⟨session, handle⟩ mode)) ∨
    (mode ≠ .none ∧ (t.lock node).involves handle = false ∧ (t.lock node).admits mode = false ∧
      result = .ok .queued ∧ t' = t.insert node ((t.lock node).queue ⟨session, handle, mode⟩)) := by
  rw [request] at eq
  split at eq
  case isTrue =>
    obtain ⟨rfl, rfl⟩ := Prod.mk.inj eq
    exact .inl ⟨_, rfl, rfl, by simp [Failure.IsFatal]⟩
  case isFalse asks =>
    dsimp only at eq
    split at eq
    case isTrue involved =>
      obtain ⟨rfl, rfl⟩ := Prod.mk.inj eq
      exact .inl ⟨_, rfl, FinMap.insert_eq_self (get?_of_involves involved),
        by simp [Failure.IsFatal]⟩
    case isFalse fresh =>
      have fresh := Bool.eq_false_iff.mpr fresh
      split at eq
      case isTrue admitted =>
        obtain ⟨rfl, rfl⟩ := Prod.mk.inj eq
        exact .inr (.inl ⟨asks, fresh, admitted, rfl, rfl⟩)
      case isFalse refused =>
        obtain ⟨rfl, rfl⟩ := Prod.mk.inj eq
        exact .inr (.inr ⟨asks, fresh, Bool.eq_false_iff.mpr refused, rfl, rfl⟩)

/-- A request that does not wait fails and changes nothing, or is granted. -/
lemma tryRequest_cases {result : Except Failure Nat} {t' : LockTable}
    (eq : t.tryRequest node session handle mode = (result, t')) :
    (∃ why, result = .error why ∧ t' = t ∧ ¬ why.IsFatal) ∨
    (mode ≠ .none ∧ (t.lock node).involves handle = false ∧ (t.lock node).admits mode = true ∧
      result = .ok ((t.lock node).grant ⟨session, handle⟩ mode).generation ∧
      t' = t.insert node ((t.lock node).grant ⟨session, handle⟩ mode)) := by
  rw [tryRequest] at eq
  split at eq
  case isTrue =>
    obtain ⟨rfl, rfl⟩ := Prod.mk.inj eq
    exact .inl ⟨_, rfl, rfl, by simp [Failure.IsFatal]⟩
  case isFalse asks =>
    dsimp only at eq
    split at eq
    case isTrue involved =>
      obtain ⟨rfl, rfl⟩ := Prod.mk.inj eq
      exact .inl ⟨_, rfl, FinMap.insert_eq_self (get?_of_involves involved),
        by simp [Failure.IsFatal]⟩
    case isFalse fresh =>
      split at eq
      case isTrue admitted =>
        obtain ⟨rfl, rfl⟩ := Prod.mk.inj eq
        exact .inr ⟨asks, Bool.eq_false_iff.mpr fresh, admitted, rfl, rfl⟩
      case isFalse refused =>
        obtain ⟨rfl, rfl⟩ := Prod.mk.inj eq
        have entry := get?_of_not_admits (Bool.eq_false_iff.mpr refused)
        exact .inl ⟨_, rfl, FinMap.insert_eq_self entry, by simp [Failure.IsFatal]⟩

/-- A lock that is consistent and settled passes the check. -/
lemma check_eq_ok (c : (t.lock node).Consistent) (s : (t.lock node).Settled) :
    t.check node = .ok () := by
  cases found : t.get? node with
  | none => rw [check, found]; rfl
  | some l =>
    rw [lock_of_get? found] at c s
    rw [check, found, Option.bind_some, c.violation?_eq_none s]

end Coordination.LockTable
