import Coordination.Proofs.Lock.Table

/-!
# Service after any calls

The coordinator serves the waiters of a lock as soon as a handle has left it. The table does not
count on that: in whatever order it is called, its locks stay consistent, also where waiters are
left behind at a free lock and newcomers get ahead of them. Service then grants the longest stretch
of the queue that can hold the lock together with its holders, and leaves nothing more to serve.

`granted` and the queue split `requests`, which service keeps; so the stretch that is served is read
off the holders afterwards, and it is the longest because the lock is settled.
-/

namespace Coordination

namespace LockState

/-- Requests that can be met at the same time: a single one, or any number of shared ones. -/
def Coexist (ws : List Waiter) : Prop := ws.length ≤ 1 ∨ ∀ w ∈ ws, w.mode = .shared

/-- The requests of the holders. -/
def granted (l : LockState) : List Waiter := l.holders.map (·.request l.mode)

variable {l : LockState} {w : Waiter} {rest : List Waiter}

/-- The holders of a consistent lock hold it together. -/
lemma Consistent.coexist (c : l.Consistent) : Coexist l.granted := by
  cases mode : l.mode with
  | none =>
    rw [granted, c.free_iff.mp mode]
    exact .inl (Nat.zero_le _)
  | exclusive =>
    rw [granted, Coexist, List.length_map, c.alone mode]
    exact .inl le_rfl
  | shared =>
    refine .inr fun v mem => ?_
    obtain ⟨x, -, rfl⟩ := List.mem_map.mp mem
    exact mode

/-- At a settled lock the head of the queue cannot hold it together with the holders. -/
lemma Consistent.not_coexist (c : l.Consistent) (s : l.Settled) (queue : l.waiters = w :: rest)
    (more : List Waiter) : ¬ Coexist (l.granted ++ w :: more) := by
  have mem : w ∈ l.waiters := queue ▸ List.mem_cons_self ..
  have blocked := (c.fits_eq_false_iff mem).mp (s w rest queue)
  have filled : l.holders ≠ [] := by
    rw [ne_eq, ← c.free_iff]
    rcases blocked with excl | ⟨shared, -⟩ <;> simp [*]
  obtain ⟨x, mem⟩ := List.exists_mem_of_ne_nil _ filled
  have holds : x.request l.mode ∈ l.granted := List.mem_map_of_mem mem
  rintro (few | shared)
  · have some := List.length_pos_of_mem holds
    rw [List.length_append, List.length_cons] at few
    omega
  · have first : l.mode = .shared := shared _ (List.mem_append_left _ holds)
    have second : w.mode = .shared := shared _ (by simp)
    simp [first, second] at blocked

/-- Those served join the holders. -/
lemma Consistent.granted_promote (c : l.Consistent) :
    l.promote.2.granted = l.granted ++ l.promote.1 := by
  have queue : l.promote.1 ++ l.promote.2.waiters = l.waiters := (serve_parts l.waiters).2
  have same : l.promote.2.granted ++ l.promote.2.waiters =
      l.granted ++ l.promote.1 ++ l.promote.2.waiters := by
    calc l.promote.2.granted ++ l.promote.2.waiters
      _ = l.requests := c.promote.2
      _ = l.granted ++ (l.promote.1 ++ l.promote.2.waiters) := by rw [queue]; rfl
      _ = l.granted ++ l.promote.1 ++ l.promote.2.waiters := (List.append_assoc ..).symm
  exact List.append_cancel_right same

/-- Those served can hold the lock together with its holders, and no longer stretch of the queue
can. -/
lemma Consistent.longest (c : l.Consistent) : Coexist (l.granted ++ l.promote.1) ∧
    ∀ run, run <+: l.waiters → Coexist (l.granted ++ run) → run <+: l.promote.1 := by
  rw [← c.granted_promote]
  refine ⟨c.promote.1.coexist, fun run front together => ?_⟩
  have queue : l.promote.1 ++ l.promote.2.waiters = l.waiters := (serve_parts l.waiters).2
  rcases List.prefix_or_prefix_of_prefix front ⟨_, queue⟩ with shorter | ⟨more, rfl⟩
  · exact shorter
  · cases more with
    | nil => exact List.append_nil _ ▸ List.prefix_refl _
    | cons w more =>
      -- the stretch would go on with the head of those that still wait
      exfalso
      obtain ⟨rest, eq⟩ : w :: more <+: l.promote.2.waiters := by
        rw [← queue] at front
        exact (List.prefix_append_right_inj _).mp front
      rw [← List.append_assoc, ← c.granted_promote] at together
      exact c.promote.1.not_coexist settled_promote eq.symm more together

end LockState

namespace LockTable

/-! ## Calls to the table -/

/-- What can be asked of the table. -/
inductive Call where
  | request (node : NodeId) (session : SessionId) (handle : HandleId) (mode : LockMode)
  | tryRequest (node : NodeId) (session : SessionId) (handle : HandleId) (mode : LockMode)
  | release (node : NodeId) (handle : HandleId)
  | withdraw (node : NodeId) (handle : HandleId)
  | promote (node : NodeId)
  | remove (node : NodeId)
  deriving DecidableEq

/-- What becomes of the table. -/
def perform (t : LockTable) : Call → LockTable
  | .request node session handle mode => (t.request node session handle mode).2
  | .tryRequest node session handle mode => (t.tryRequest node session handle mode).2
  | .release node handle =>
    match t.release node handle with
    | .ok (_, t') => t'
    | .error _ => t
  | .withdraw node handle =>
    match t.withdraw? node handle with
    | some (_, t') => t'
    | none => t
  | .promote node => (t.promote node).2
  | .remove node => FinMap.erase t node

/-- The table that calls have made of the empty one. -/
def after (calls : List Call) : LockTable := calls.foldl perform FinMap.empty

variable {t : LockTable} {node : NodeId} {handle : HandleId} {session : SessionId} {mode : LockMode}

/-- A table without entries is consistent. -/
lemma consistent_empty : Consistent FinMap.empty := by
  intro node l found
  cases found

/-- A consistent lock may be put in place. -/
lemma Consistent.insert {l : LockState} (c : t.Consistent) (cl : l.Consistent) :
    Consistent (t.insert node l) := by
  intro node' l' found
  rw [FinMap.get?_insert] at found
  split at found
  case isTrue => exact Option.some.inj found ▸ cl
  case isFalse => exact c node' l' found

/-- An entry may be dropped. -/
lemma Consistent.erase (c : t.Consistent) : Consistent (FinMap.erase t node) := by
  intro node' l found
  rw [FinMap.get?_erase] at found
  split at found
  case isTrue => cases found
  case isFalse => exact c node' l found

/-- A request keeps the table consistent, whatever its result. -/
lemma Consistent.request {result : Except Failure LockStatus} {t' : LockTable} (c : t.Consistent)
    (eq : t.request node session handle mode = (result, t')) : t'.Consistent := by
  rcases request_cases eq with ⟨-, -, rfl, -⟩ | ⟨asks, fresh, admitted, -, rfl⟩ |
    ⟨asks, fresh, -, -, rfl⟩
  · exact c
  · exact c.insert ((c.lock node).join ⟨session, handle⟩ asks fresh admitted)
  · exact c.insert ((c.lock node).enqueue ⟨session, handle, mode⟩ asks fresh)

/-- An attempt keeps the table consistent, whatever its result. -/
lemma Consistent.tryRequest {result : Except Failure Nat} {t' : LockTable} (c : t.Consistent)
    (eq : t.tryRequest node session handle mode = (result, t')) : t'.Consistent := by
  rcases tryRequest_cases eq with ⟨-, -, rfl, -⟩ | ⟨asks, fresh, admitted, -, rfl⟩
  · exact c
  · exact c.insert ((c.lock node).join ⟨session, handle⟩ asks fresh admitted)

/-- Taking a handle out of a lock keeps the table consistent. -/
lemma Consistent.strip (c : t.Consistent) : (t.strip node handle).Consistent :=
  c.modify fun _ cl => cl.without _

/-- Serving waiters keeps the table consistent. -/
lemma Consistent.promote (c : t.Consistent) : (t.promote node).2.Consistent := by
  rw [promote_eq]
  exact c.modify fun _ cl => cl.promote.1

/-- Whatever is asked of a table, its locks stay consistent. -/
lemma Consistent.perform (c : t.Consistent) (call : Call) : (t.perform call).Consistent := by
  cases call with
  | request node session handle mode => exact c.request rfl
  | tryRequest node session handle mode => exact c.tryRequest rfl
  | release node handle =>
    cases held : t.isHolder node handle with
    | true =>
      obtain ⟨holder, eq⟩ := c.release_eq held
      rw [LockTable.perform, eq]
      exact c.strip
    | false =>
      rw [LockTable.perform, release_of_not_holder held]
      exact c
  | withdraw node handle =>
    cases waiting : (t.lock node).isWaiting handle with
    | true =>
      obtain ⟨w, eq⟩ := c.withdraw?_eq waiting
      rw [LockTable.perform, eq]
      exact c.strip
    | false =>
      rw [LockTable.perform, withdraw?_eq_none waiting]
      exact c
  | promote node => exact c.promote
  | remove node => exact c.erase

/-- The table is consistent after any calls. -/
lemma consistent_after (calls : List Call) : (after calls).Consistent := by
  induction calls using List.reverseRecOn with
  | nil => exact consistent_empty
  | append_singleton calls call ih =>
    rw [after, List.foldl_concat]
    exact ih.perform call

/-! ## Service -/

/-- How the waiters of a node are served: a table grants the lock of the node to the eligible ones
and becomes another. -/
structure Serves (t : LockTable) (node : NodeId) (grants : List Grant) (t' : LockTable) : Prop where
  /-- The grants are those of the eligible waiters, in the order of the queue. -/
  grants : grants = (t.lock node).eligible.map (Grant.mk node)
  /-- They have moved from the head of the queue to the end of the holders. -/
  holders : (t'.lock node).holders =
    (t.lock node).holders ++ (t.lock node).eligible.map Waiter.holder
  waiters : (t.lock node).waiters = (t.lock node).eligible ++ (t'.lock node).waiters
  /-- They can hold the lock together with the holders there were. -/
  together : LockState.Coexist ((t.lock node).granted ++ (t.lock node).eligible)
  /-- No longer stretch of the queue can. -/
  longest : ∀ run, run <+: (t.lock node).waiters →
    LockState.Coexist ((t.lock node).granted ++ run) → run <+: (t.lock node).eligible
  /-- The other nodes have the locks they had. -/
  others : ∀ other, other ≠ node → t'.get? other = t.get? other
  /-- The lock of the node passes the check between operations. -/
  checked : t'.check node = .ok ()
  /-- Nobody is served a second time. -/
  settled : t'.promote node = ([], t')

/-- In a consistent table the waiters of a node are served as described. -/
lemma Consistent.serves (c : t.Consistent) (node : NodeId) :
    t.Serves node (t.promote node).1 (t.promote node).2 := by
  have cl := c.lock node
  have eligible : (t.lock node).promote.1 = (t.lock node).eligible := cl.promote_eligible
  obtain ⟨holders, waiters⟩ := LockState.serve_parts (l := t.lock node) (t.lock node).waiters
  have lock : (t.promote node).2.lock node = (t.lock node).promote.2 := by
    rw [lock_promote, if_pos rfl]
  have settled : ((t.promote node).2.lock node).Settled := by
    rw [lock]
    exact LockState.settled_promote
  constructor
  case grants => rw [promote_eq, eligible]
  case holders =>
    rw [lock, ← eligible]
    exact holders
  case waiters =>
    rw [lock, ← eligible]
    exact waiters.symm
  case together => exact eligible ▸ cl.longest.1
  case longest => exact eligible ▸ cl.longest.2
  case others =>
    intro other apart
    rw [promote_eq, FinMap.get?_modify, if_neg apart]
  case checked => exact check_eq_ok (c.promote.lock node) settled
  case settled =>
    rw [promote_eq (t := (t.promote node).2), settled.promote_eq_self]
    refine Prod.ext rfl (FinMap.modify_eq_self fun l found => ?_)
    rw [lock_of_get? found] at settled
    rw [settled.promote_eq_self]

/-- In whatever order the table is called, the mode of a lock says how many hold it and nobody takes
part twice; and from there service grants the longest stretch of the queue that it can. -/
theorem sound_after_any_calls (calls : List Call) (node : NodeId) :
    (((after calls).lock node).mode = .none ↔ ((after calls).lock node).holders = []) ∧
    (((after calls).lock node).mode = .exclusive →
      ((after calls).lock node).holders.length = 1) ∧
    (((after calls).lock node).mode = .shared →
      1 ≤ ((after calls).lock node).holders.length) ∧
    (((after calls).lock node).holders.map Holder.handle ++
      ((after calls).lock node).waiters.map Waiter.handle).Nodup ∧
    (after calls).Serves node ((after calls).promote node).1 ((after calls).promote node).2 := by
  have c := (consistent_after calls).lock node
  refine ⟨c.free_iff, c.alone, fun shared => ?_, c.unique, (consistent_after calls).serves node⟩
  exact List.length_pos_iff.mpr (c.holders_ne_nil shared)

/-- A newcomer gets ahead of the waiters that a release has left behind. -/
example : (after [.request ⟨1⟩ ⟨1⟩ ⟨1⟩ .exclusive, .request ⟨1⟩ ⟨2⟩ ⟨2⟩ .exclusive,
    .release ⟨1⟩ ⟨1⟩, .tryRequest ⟨1⟩ ⟨3⟩ ⟨3⟩ .shared]).lock ⟨1⟩ =
      ⟨.shared, [⟨⟨3⟩, ⟨3⟩⟩], [⟨⟨2⟩, ⟨2⟩, .exclusive⟩], 1⟩ := by decide

end LockTable

end Coordination
