import Coordination.Proofs.Coordinator.Endings
import Coordination.Proofs.Coordinator.Creation
import Coordination.Proofs.Store

/-!
# What the building blocks of an operation do

On tables that are linked, a building block either changes nothing and is interrupted for a plain
reason, or it runs to its end and makes the change of `Stages`. The end of handles and sessions
cannot be interrupted at all.
-/

namespace Coordination.Op

variable {s s' : State} {id above : NodeId} {handle : HandleId} {session : SessionId}
variable {path : String} {dying : Set SessionId} {n : Node} {st : Store}

/-- Nothing has changed, and the reason is plain. -/
def Undone (s : State) (e : Interruption) (s' : State) : Prop := s' = s ∧ e.Plain s.store.fault

/-- At most contact has been recorded, and the reason is plain. -/
def Declined (s : State) (caller : SessionId) (now : Instant) (e : Interruption) (s' : State) : Prop :=
  (s' = s ∨ s' = s.contacted caller now) ∧ e.Plain s.store.fault

/-- A refusal leaves nothing done. -/
lemma undone_of_refused {why : Failure} (harmless : ¬ why.IsFatal) : Undone s (.refused why) s :=
  ⟨rfl, .refused harmless⟩

/-- What is left undone after the contact of the caller is declined. -/
lemma Undone.declined {caller : SessionId} {now : Instant} {e : Interruption}
    (undone : Undone (s.contacted caller now) e s') : Declined s caller now e s' :=
  ⟨.inr undone.1, undone.2⟩

/-! ## Contact -/

/-- The caller is live and has been in contact, or nothing is done. -/
lemma meets_touch {now : Instant} : Meets (touch session now) s
    (fun _ s' => s' = s.contacted session now ∧ s.Live session) (Undone s) := by
  simp only [touch, meets_bind, meets_get, meets_ofExcept, meets_modify]
  constructor
  · intro t touched
    obtain ⟨live, rfl⟩ := SessionTable.touch_eq_ok.mp touched
    exact ⟨rfl, live⟩
  · intro why failed
    rcases bind_eq_error.mp failed with failed | ⟨_, -, eq⟩
    · exact undone_of_refused (SessionTable.live_error failed)
    · cases eq

/-- The handle is one of the caller, who has been in contact, or the call is declined. -/
lemma meets_nodeOf {caller : SessionId} {now : Instant} : Meets (nodeOf caller handle now) s
    (fun node s' => s' = s.contacted caller now ∧ s.Live caller ∧
      ∃ r, s.handles.get? handle = some r ∧ r.session = caller ∧ r.node = node)
    (Declined s caller now) := by
  rw [nodeOf, meets_bind]
  refine meets_touch.imp ?_ fun e s' undone => ⟨.inl undone.1, undone.2⟩
  rintro _ _ ⟨rfl, live⟩
  simp only [meets_bind, meets_get, meets_ofExcept]
  constructor
  · intro r got
    have found : s.handles.get? handle = some r := by
      cases eq : (s.contacted caller now).handles.get? handle with
      | none => simp [HandleTable.get, eq] at got
      | some r' =>
        simp only [HandleTable.get, eq, Except.ok.injEq] at got
        exact got ▸ eq
    split
    case isTrue =>
      refine Undone.declined (undone_of_refused ?_)
      rintro ⟨detail, eq⟩
      cases eq
    case isFalse own =>
      exact ⟨rfl, live, r, found, not_not.mp own, rfl⟩
  · intro why failed
    refine Undone.declined (undone_of_refused ?_)
    rintro ⟨detail, rfl⟩
    unfold HandleTable.get at failed
    split at failed <;> cases failed

/-! ## Locks -/

/-- A lock that is linked and settled passes its check. -/
lemma run_checkLock (linked : s.Linked) (settled : (s.locks.lock id).Settled) :
    (checkLock id).run s = (.ok (), s) := by
  have passes := LockTable.check_eq_ok (linked.consistent.lock id) settled
  rw [checkLock, run_get_bind, passes]
  rfl

/-- Giving up locks cannot be interrupted. -/
lemma run_surrender (linked : s.Linked) (touched : FinSet NodeId) (list : List HandleId) :
    (surrender touched list).run s =
      (.ok (s.surrendered touched list).1, (s.surrendered touched list).2) := by
  induction list generalizing s touched with
  | nil => rfl
  | cons h rest ih =>
    rw [surrender, run_get_bind, State.surrendered]
    cases found : s.handles.get? h with
    | none =>
      have yield : s.yield h = s := by rw [State.yield, found]
      have stake : s.stake? h = none := by rw [State.stake?, found]
      rw [yield, stake]
      exact ih linked touched
    | some r =>
      have next := linked.yield found
      have yield := State.yield_of_get? found
      have stake := State.stake?_of_get? found
      dsimp only
      -- the program asks first whether the handle holds the lock, then whether it waits for it
      cases held : s.locks.isHolder r.node h with
      | true =>
        obtain ⟨holder, released⟩ := linked.consistent.release_eq held
        have involved : (s.locks.lock r.node).involves h = true :=
          Bool.or_eq_true_iff.mpr (.inl held)
        rw [held, if_pos rfl] at yield
        rw [involved, if_pos rfl] at stake
        rw [if_pos rfl, released, run_bind_of_ok (run_ofExcept_ok _), run_modify_bind, yield, stake]
        rw [yield] at next
        exact ih next (touched.add r.node)
      | false =>
        rw [held, if_neg Bool.false_ne_true] at yield
        rw [if_neg Bool.false_ne_true]
        cases waits : (s.locks.lock r.node).isWaiting h with
        | true =>
          obtain ⟨w, withdrawn⟩ := linked.consistent.withdraw?_eq waits
          have involved : (s.locks.lock r.node).involves h = true :=
            Bool.or_eq_true_iff.mpr (.inr waits)
          rw [involved, if_pos rfl] at stake
          rw [withdrawn]
          dsimp only
          rw [run_modify_bind, yield, stake]
          rw [yield] at next
          exact ih next (touched.add r.node)
        | false =>
          have uninvolved : (s.locks.lock r.node).involves h = false :=
            Bool.or_eq_false_iff.mpr ⟨held, waits⟩
          -- stripping a handle from a lock in which it has no part is no change
          have same : s.strip r.node h = s := by
            rw [State.strip, linked.consistent.strip_eq_self uninvolved]
          rw [uninvolved, if_neg Bool.false_ne_true] at stake
          rw [LockTable.withdraw?_eq_none waits, yield, stake, same]
          exact ih linked touched

/-! ## Nodes -/

/-- A node is new and recorded, or nothing is done. -/
lemma meets_createNode (linked : s.Linked) {isDir ephemeral : Bool} :
    Meets (createNode path isDir ephemeral) s
      (fun id s' => id = s.tree.next ∧ ∃ above st, s.tree.checkCreate path = .ok above ∧
        s.recorded ephemeral (·.put (Record.key path) (Record.mk isDir .empty).encode) = .ok st ∧
        s' = (s.withStore st).grown above path isDir ephemeral)
      (Undone s) := by
  simp only [createNode, meets_bind, meets_get, meets_ofExcept, meets_ite_store]
  refine ⟨?_, fun why failed => undone_of_refused (Tree.not_fatal_of_checkCreate failed)⟩
  intro above checked
  have written : (if (!ephemeral) = true then
      s.store.put (Record.key path) (Record.mk isDir .empty).encode else .ok s.store) =
      s.recorded ephemeral (·.put (Record.key path) (Record.mk isDir .empty).encode) := by
    cases ephemeral <;> rfl
  rw [written]
  refine ⟨?_, ?_⟩
  · intro st stored
    have created := Tree.create_eq_ok isDir ephemeral checked
    refine ⟨?_, ?_⟩
    · rintro ⟨id, tree⟩ made
      obtain ⟨rfl, rfl⟩ := Prod.mk.inj (Except.ok.inj (created.symm.trans made))
      rw [meets_modify]
      dsimp only
      rw [linked.tree.parent?_grow checked]
      exact ⟨rfl, above, st, checked, stored, rfl⟩
    · intro why failed
      rw [created] at failed
      cases failed
  · intro e failed
    refine ⟨rfl, ?_⟩
    cases ephemeral with
    | true => cases failed
    | false => exact Store.plain_of_put failed

/-- A node that is there is found. -/
lemma run_node (node : s.tree.get? id = some n) : (Op.node id).run s = (.ok n, s) := by
  rw [Op.node, run_get_bind, node]
  rfl

/-- The record of a node is written with a change that is still to be made. -/
lemma meets_persist (node : s.tree.get? id = some n) {change : Record → Record} :
    Meets (persist id change) s
      (fun _ s' => ∃ st, s.recorded n.ephemeral
        (·.put (Record.key n.path) (change n.record).encode) = .ok st ∧ s' = s.withStore st)
      (Undone s) := by
  rw [persist, meets_bind, meets_get, Tree.record?, node]
  cases eph : n.ephemeral with
  | true =>
    simp only [Option.bind_eq_bind, Option.bind_some, eph, if_true]
    exact ⟨s.store, rfl, rfl⟩
  | false =>
    simp only [Option.bind_eq_bind, Option.bind_some, eph, Bool.false_eq_true, if_false]
    rw [meets_bind, meets_of_run (run_node node), meets_store]
    exact ⟨fun st stored => ⟨st, stored, rfl⟩, fun e failed => ⟨rfl, Store.plain_of_put failed⟩⟩

/-- The store is told only of a node that has a record. -/
lemma run_recorded {α : Type} (node : s.tree.get? id = some n)
    {change : Store → Except Interruption Store} (stored : s.recorded n.ephemeral change = .ok st)
    (next : Unit → Op α) :
    (if (s.tree.record? id).isSome then store change >>= next else next ()).run s =
      (next ()).run (s.withStore st) := by
  have record : (s.tree.record? id).isSome = !n.ephemeral := by
    rw [Tree.record?, node]
    cases h : n.ephemeral <;> simp [h]
  cases eph : n.ephemeral with
  | true =>
    rw [eph] at stored record
    obtain rfl : s.store = st := Except.ok.inj stored
    rw [record, if_neg (by simp)]
    rfl
  | false =>
    rw [eph] at stored record
    have told : change s.store = .ok st := stored
    rw [record, if_pos (by simp), run_bind, run_store, told]
    rfl

/-- A node that can be removed goes, once the store has been told. -/
lemma run_removeNode (linked : s.Linked) (checked : s.tree.checkRemove path s.locks = .ok id)
    (node : s.tree.get? id = some n) (foundAbove : s.tree.find? (Path.parent path) = some above)
    (stored : s.recorded n.ephemeral (·.delete (Record.key path)) = .ok st) :
    (removeNode path).run s =
      (.ok (), (s.withStore st).removed id above path n.handles.keys) := by
  obtain ⟨n', above', p, node', -, found', -, -, removed⟩ := linked.tree.remove_eq_ok checked
  obtain rfl : n = n' := Option.some.inj (node.symm.trans node')
  obtain rfl : above = above' := Option.some.inj (foundAbove.symm.trans found')
  rw [removeNode, run_get_bind, checked, run_bind_of_ok (run_ofExcept_ok _),
    run_recorded node stored, removed, run_bind_of_ok (run_ofExcept_ok _), run_modify_bind,
    run_modify_bind, run_get_bind, (State.foldl_dropStale_frame n.handles.keys).1,
    Tree.lookup_parent_prune checked foundAbove, run_modify]
  rfl

/-- The removal of a node is interrupted before anything has changed, or it runs to its end. -/
lemma meets_removeNode (linked : s.Linked) : Meets (removeNode path) s
    (fun _ s' => ∃ id n above st, s.tree.checkRemove path s.locks = .ok id ∧
      s.tree.get? id = some n ∧ s.tree.find? (Path.parent path) = some above ∧
      s.recorded n.ephemeral (·.delete (Record.key path)) = .ok st ∧
      s' = (s.withStore st).removed id above path n.handles.keys)
    (Undone s) := by
  cases checked : s.tree.checkRemove path s.locks with
  | error why =>
    simp only [removeNode, meets_bind, meets_get, meets_ofExcept, checked]
    refine ⟨nofun, ?_⟩
    rintro _ ⟨⟩
    exact undone_of_refused (Tree.not_fatal_of_checkRemove checked)
  | ok id =>
    obtain ⟨n, above, p, node, -, foundAbove, -⟩ := linked.tree.remove_eq_ok checked
    cases stored : s.recorded n.ephemeral (·.delete (Record.key path)) with
    | ok st =>
      rw [meets_of_run (run_removeNode linked checked node foundAbove stored)]
      exact ⟨id, n, above, st, rfl, node, foundAbove, stored, rfl⟩
    | error e =>
      have written : (if (s.tree.record? id).isSome = true then s.store.delete (Record.key path)
          else .ok s.store) = .error e := by
        rw [← stored, Tree.record?, node]
        cases h : n.ephemeral <;> simp [h, State.recorded]
      simp only [removeNode, meets_bind, meets_get, meets_ofExcept, meets_ite_store]
      refine ⟨?_, ?_⟩
      · intro id' checked'
        obtain rfl : id = id' := Except.ok.inj (checked.symm.trans checked')
        rw [written]
        refine ⟨nofun, ?_⟩
        rintro _ ⟨⟩
        cases eph : n.ephemeral with
        | true =>
          rw [eph] at stored
          cases stored
        | false =>
          rw [eph] at stored
          exact ⟨rfl, Store.plain_of_delete stored⟩
      · intro why failed
        rw [checked] at failed
        cases failed

/-! ## Idle ephemeral nodes -/

/-- Reaping always succeeds. -/
lemma run_reapFrom (linked : s.Linked) (settled : ∀ i, (s.locks.lock i).Settled) (k : Nat) :
    (reapFrom k id).run s = (.ok (), s.reapFrom id k) := by
  induction k generalizing s id with
  | zero => rfl
  | succ k ih =>
    rw [reapFrom, run_get_bind, State.reapFrom]
    cases idle : s.idleEphemeral? id with
    | none => rfl
    | some path =>
      have checked := linked.checkRemove_of_idle idle
      obtain ⟨above, foundAbove⟩ := linked.find?_above checked
      obtain ⟨n, node, -, eph, unseated, -⟩ := (State.idleEphemeral?_eq_some path).mp idle
      have nobody : n.handles.keys = [] :=
        List.eq_nil_iff_forall_not_mem.mpr fun h mem => unseated h (FinMap.mem_keys.mp mem)
      -- an ephemeral node was never stored
      have stored : s.recorded n.ephemeral (·.delete (Record.key path)) = .ok s.store := by
        rw [eph]
        rfl
      have removed := run_removeNode linked checked node foundAbove stored
      obtain ⟨sheds, linked'⟩ := linked.removed_idle (settled id) idle foundAbove
      have same : s.withStore s.store = s := rfl
      rw [nobody, same] at removed
      dsimp only
      rw [run_bind_of_ok removed, run_get_bind, foundAbove]
      dsimp only
      -- the next candidate is the node above, which is still where it was
      rw [State.tree_removed, Tree.lookup_parent_prune checked foundAbove]
      exact ih linked' fun i => sheds.settled (settled i)

/-- The removal of idle ephemeral nodes cannot be interrupted. -/
lemma run_reap (linked : s.Linked) (settled : ∀ i, (s.locks.lock i).Settled) (id : NodeId) :
    (reap id).run s = (.ok (), s.reap id) := by
  rw [reap, run_get_bind, State.reap]
  cases s.tree.get? id with
  | none => rfl
  | some n => exact run_reapFrom linked settled _

/-- Nor can the end of an open handle that uses no lock. -/
lemma run_detach (linked : s.Linked) (settled : ∀ i, (s.locks.lock i).Settled) {r : Handle}
    (found : s.handles.get? handle = some r)
    (idle : (s.locks.lock r.node).involves handle = false) :
    (detach handle).run s = (.ok (), s.detach handle) := by
  have closed : s.handles.close handle =
      .ok (r, { s.handles with handles := s.handles.handles.erase handle }) := by
    rw [HandleTable.close, HandleTable.get, found]
    rfl
  rw [detach, run_get_bind, State.detach, found]
  dsimp only
  rw [closed, run_bind_of_ok (run_ofExcept_ok _), run_modify_bind, run_modify_bind]
  exact run_reap (linked.unseat found idle) settled r.node

/-! ## The end of sessions -/

/-- The end of a session cannot be interrupted. -/
lemma run_teardown (linked : s.Linked) (tidy : s.Tidy dying ∅) (ends : session ∈ dying) :
    (teardown session).run s = (.ok (), s.teardown session) := by
  -- every lock is settled once the waiters are served, so no check interrupts the end
  obtain ⟨tidy₁, leaving, -⟩ := linked.relieved tidy ends
  have settled : ∀ i, ((s.relieved session).locks.lock i).Settled :=
    fun i => tidy₁.settled i (Set.notMem_empty _)
  have checks : ∀ nodes : List NodeId, (nodes.forM checkLock).run (s.relieved session) =
      (.ok (), s.relieved session) := by
    intro nodes
    have fixed : nodes.foldl (fun s _ => s) (s.relieved session) = s.relieved session :=
      List.foldl_fixed _
    rw [run_forM (g := fun s _ => s) (I := fun _ s' => s' = s.relieved session) ?_ nodes rfl, fixed]
    rintro i rest _ rfl
    exact ⟨run_checkLock leaving.linked (settled i), rfl⟩
  have ends : ((s.handlesOf session).forM detach).run (s.relieved session) =
      (.ok (), (s.handlesOf session).foldl State.detach (s.relieved session)) := by
    refine run_forM (g := State.detach) (I := fun list s' => s'.Leaving list) ?_ _ leaving
    intro h rest s' left
    obtain ⟨r, found, idle⟩ := left.head
    obtain ⟨-, -, -, left'⟩ := left.detach
    exact ⟨run_detach left.linked left.settled found idle, left'⟩
  rw [teardown, run_get_bind]
  show ExceptT.run (surrender .empty (s.handlesOf session) >>= _) s = _
  rw [run_bind_of_ok (run_surrender linked _ _), run_modify_bind, run_modify_bind, run_bind]
  erw [checks]
  dsimp only
  rw [run_bind]
  erw [ends]
  rfl

end Coordination.Op
