import Coordination.Proofs.Coordinator.Calls

/-!
# Requests

Every call in the name of a session is done or fails as `Calls` says, and so is every other call:
`meets_op`. Contact comes first; what a request does from there on is said here.
-/

namespace Coordination.Op

open State

variable {s : State} {now : Instant} {caller : SessionId} {handle : HandleId} {r : Handle}
variable {path name : String} {mode : LockMode} {value : Bytes}

/-! ## Opening and closing -/

/-- Opening a handle finds the node or creates it, and seats the handle. -/
lemma meets_openHandle (sound : s.Sound) {flags : OpenFlags} {interest : Interest}
    {callback : Callback} :
    Meets (Call.op now (.openHandle caller path flags interest callback)) s
      (s.Done now (.openHandle caller path flags interest callback))
      (s.Failed now (.openHandle caller path flags interest callback)) := by
  have linked := (sound.contacted caller now).linked
  rw [Call.op, meets_map, openHandle]
  refine meets_contacted fun live => ?_
  simp only [resolve, meets_bind, meets_get, meets_ofExcept, meets_modify]
  refine ⟨fun _ valid => ?_, fun why invalid => failed_of_refused rfl ?_⟩
  · have valid := Path.validate_eq_ok_iff.mp valid
    cases looked : (s.contacted caller now).tree.lookup path with
    | ok node =>
      dsimp only
      split
      case isTrue =>
        refine failed_of_refused rfl ?_
        rintro ⟨detail, eq⟩
        cases eq
      case isFalse old =>
        have found := (Tree.lookup_eq_ok_iff.mp looked).2
        exact .openHandle live valid found (Bool.eq_false_iff.mpr old)
    | error why =>
      have harmless := Tree.not_fatal_of_lookup looked
      cases why with
      | noSuchNode missing =>
        dsimp only
        split
        case isTrue asked =>
          refine (meets_createNode linked).imp ?_ fun e s' undone => failed_of_undone rfl undone
          rintro id s' ⟨rfl, above, st, checked, stored, rfl⟩
          rw [meets_pure]
          have handles : (((s.contacted caller now).withStore st).grown above path
              (flags.meets .directory) (flags.meets .ephemeral)).handles = s.handles :=
            (sameTables_grown ..).handles
          have done : s.Done now (.openHandle caller path flags interest callback) _ _ :=
            .openNew live asked checked stored
          rw [← handles] at done
          exact done
        case isFalse => exact failed_of_refused rfl harmless
      | _ => exact failed_of_refused rfl harmless
  · rintro ⟨detail, rfl⟩
    exact Path.validate_ne_corrupted invalid

/-- Closing a handle takes it out of its lock and then away. -/
lemma meets_close (sound : s.Sound) : Meets (Call.op now (.close caller handle)) s
    (s.Done now (.close caller handle)) (s.Failed now (.close caller handle)) := by
  have sound₁ := sound.contacted caller now
  rw [Call.op, meets_bind, close]
  refine meets_owned rfl fun r owns => ?_
  have found : (s.contacted caller now).handles.get? handle = some r := owns.found
  have vacated := sound₁.vacated found
  have rest : Meets (checkLock r.node >>= fun _ => detach handle)
      ((s.contacted caller now).vacated handle r)
      (fun _ s' => s.Done now (.close caller handle) .done s')
      (s.Failed now (.close caller handle)) := by
    have found' : ((s.contacted caller now).vacated handle r).handles.get? handle = some r := by
      rw [(State.frame_vacated ..).2.1]
      exact found
    rw [meets_bind, meets_of_run (run_checkLock vacated.linked (vacated.settled r.node))]
    refine (meets_of_run (run_detach vacated.linked vacated.settled found' ?_)).mpr (.close owns)
    exact sound₁.linked.not_involves_vacated found
  rw [meets_bind, meets_get]
  cases held : (s.contacted caller now).locks.isHolder r.node handle with
  | true =>
    obtain ⟨holder, released⟩ := sound₁.linked.consistent.release_eq held
    have same : (s.contacted caller now).vacated handle r =
        (s.contacted caller now).released handle r := if_pos held
    rw [same, State.released, owns.own] at rest
    rw [if_pos rfl, meets_bind, released, meets_of_run (run_ofExcept_ok _)]
    simp only [meets_bind, meets_modify] at rest ⊢
    exact rest
  | false =>
    rw [if_neg (by simp)]
    cases waits : ((s.contacted caller now).locks.lock r.node).isWaiting handle with
    | true =>
      obtain ⟨w, withdrawn⟩ := sound₁.linked.consistent.withdraw?_eq waits
      have same : (s.contacted caller now).vacated handle r =
          ((s.contacted caller now).strip r.node handle).promote r.node := by
        rw [State.vacated, held, waits]
        rfl
      rw [same] at rest
      rw [withdrawn]
      simp only [meets_bind, meets_modify] at rest ⊢
      exact rest
    | false =>
      have same : (s.contacted caller now).vacated handle r = s.contacted caller now := by
        rw [State.vacated, held, waits]
        rfl
      rw [same] at rest
      rw [LockTable.withdraw?_eq_none waits]
      simp only [meets_bind, meets_pure] at rest ⊢
      exact rest

/-! ## Nodes -/

/-- A directory is created, or the request fails with nothing done. -/
lemma meets_mkdir (sound : s.Sound) : Meets (Call.op now (.mkdir caller path)) s
    (s.Done now (.mkdir caller path)) (s.Failed now (.mkdir caller path)) := by
  have linked := (sound.contacted caller now).linked
  rw [Call.op, meets_bind, mkdir]
  refine meets_contacted fun live => ?_
  rw [meets_bind]
  refine (meets_createNode linked).imp ?_ fun e s' undone => failed_of_undone rfl undone
  rintro id s' ⟨-, above, st, checked, stored, rfl⟩
  exact .mkdir live checked stored

/-- A node is removed with the handles on it, or the request fails with nothing done. -/
lemma meets_delete (sound : s.Sound) : Meets (Call.op now (.delete caller path)) s
    (s.Done now (.delete caller path)) (s.Failed now (.delete caller path)) := by
  have sound₁ := sound.contacted caller now
  rw [Call.op, meets_bind, delete]
  refine meets_contacted fun live => ?_
  simp only [meets_bind, meets_get, meets_ofExcept]
  refine ⟨fun _ valid => ?_, fun why invalid => failed_of_refused rfl ?_⟩
  · refine (meets_removeNode sound₁.linked).imp ?_ fun e s' undone => failed_of_undone rfl undone
    rintro _ s' ⟨id, n, above, st, checked, node, foundAbove, stored, rfl⟩
    have looked : (s.contacted caller now).tree.lookup (Path.parent path) = .ok above := by
      obtain ⟨valid, notRoot, -⟩ := Tree.checkRemove_eq_ok_iff.mp checked
      exact Tree.lookup_eq_ok_iff.mpr ⟨Path.isValid_parent valid notRoot, foundAbove⟩
    have removed := (sound₁.withStore st).removed checked node foundAbove
    rw [looked]
    refine (meets_of_run (run_reap removed.linked removed.settled above)).mpr ?_
    exact .delete live checked node foundAbove stored
  · rintro ⟨detail, rfl⟩
    exact Path.validate_ne_corrupted invalid

/-- Asking for a path changes only the contact of the caller. -/
lemma meets_pathExists : Meets (Call.op now (.pathExists caller path)) s
    (s.Done now (.pathExists caller path)) (s.Failed now (.pathExists caller path)) := by
  rw [Call.op, meets_map, pathExists]
  refine meets_contacted fun live => ?_
  simp only [meets_bind, meets_get, meets_pure]
  exact .pathExists live

/-- Listing the children changes only the contact of the caller. -/
lemma meets_readdir (sound : s.Sound) : Meets (Call.op now (.readdir caller handle)) s
    (s.Done now (.readdir caller handle)) (s.Failed now (.readdir caller handle)) := by
  rw [Call.op, meets_map, readdir]
  refine meets_owned rfl fun r owns => ?_
  refine meets_node (sound.contacted caller now).linked owns.found fun n node => ?_
  exact .readdir owns node

/-! ## Attributes -/

/-- An attribute is set in the store and at the node, or not at all. -/
lemma meets_attrSet (sound : s.Sound) : Meets (Call.op now (.attrSet caller handle name value)) s
    (s.Done now (.attrSet caller handle name value))
    (s.Failed now (.attrSet caller handle name value)) := by
  rw [Call.op, meets_bind, attrSet]
  refine meets_owned rfl fun r owns => ?_
  obtain ⟨n, node, -⟩ := sound.linked.node_of_handle handle r owns.found
  rw [meets_bind]
  refine (meets_persist (s := s.contacted caller now) node).imp ?_
    fun e s' undone => failed_of_undone rfl undone
  rintro _ _ ⟨st, stored, rfl⟩
  simp only [meets_bind, meets_modify]
  exact .attrSet owns node stored

/-- An attribute is deleted in the store and at the node, or not at all. -/
lemma meets_attrDel (sound : s.Sound) : Meets (Call.op now (.attrDel caller handle name)) s
    (s.Done now (.attrDel caller handle name)) (s.Failed now (.attrDel caller handle name)) := by
  rw [Call.op, meets_bind, attrDel]
  refine meets_owned rfl fun r owns => ?_
  refine meets_node (sound.contacted caller now).linked owns.found fun n node => ?_
  split
  case isTrue =>
    refine failed_of_refused rfl ?_
    rintro ⟨detail, eq⟩
    cases eq
  case isFalse found =>
    rw [meets_bind]
    refine (meets_persist (s := s.contacted caller now) node).imp ?_
      fun e s' undone => failed_of_undone rfl undone
    rintro _ _ ⟨st, stored, rfl⟩
    simp only [meets_bind, meets_modify]
    exact .attrDel owns node (not_not.mp found) stored

/-- Reading an attribute changes only the contact of the caller. -/
lemma meets_attrGet (sound : s.Sound) : Meets (Call.op now (.attrGet caller handle name)) s
    (s.Done now (.attrGet caller handle name)) (s.Failed now (.attrGet caller handle name)) := by
  rw [Call.op, meets_map, attrGet]
  refine meets_owned rfl fun r owns => ?_
  refine meets_node (sound.contacted caller now).linked owns.found fun n node => ?_
  cases found : n.attrs.get? name with
  | some value => exact .attrGet owns node found
  | none =>
    refine failed_of_refused rfl ?_
    rintro ⟨detail, eq⟩
    cases eq

/-- Asking for an attribute changes only the contact of the caller. -/
lemma meets_attrExists (sound : s.Sound) : Meets (Call.op now (.attrExists caller handle name)) s
    (s.Done now (.attrExists caller handle name))
    (s.Failed now (.attrExists caller handle name)) := by
  rw [Call.op, meets_map, attrExists]
  refine meets_owned rfl fun r owns => ?_
  refine meets_node (sound.contacted caller now).linked owns.found fun n node => ?_
  exact .attrExists owns node

/-- Listing the attributes changes only the contact of the caller. -/
lemma meets_attrList (sound : s.Sound) : Meets (Call.op now (.attrList caller handle)) s
    (s.Done now (.attrList caller handle)) (s.Failed now (.attrList caller handle)) := by
  rw [Call.op, meets_map, attrList]
  refine meets_owned rfl fun r owns => ?_
  refine meets_node (sound.contacted caller now).linked owns.found fun n node => ?_
  exact .attrList owns node

/-! ## Locks -/

/-- A request for a lock is granted, queued or refused. -/
lemma meets_lock (sound : s.Sound) : Meets (Call.op now (.lock caller handle mode)) s
    (s.Done now (.lock caller handle mode)) (s.Failed now (.lock caller handle mode)) := by
  have sound₁ := sound.contacted caller now
  rw [Call.op, meets_map, lock]
  refine meets_owned rfl fun r owns => ?_
  rw [meets_bind, meets_get]
  cases request : (s.contacted caller now).locks.request r.node caller handle mode with
  | mk result locks =>
    simp only [meets_bind, meets_modify, meets_ofExcept]
    rcases LockTable.request_cases request with
      ⟨why, rfl, rfl, harmless⟩ | ⟨asks, fresh, admitted, rfl, rfl⟩ | ⟨asks, fresh, refused, rfl, rfl⟩
    · constructor <;> rintro _ ⟨⟩
      exact failed_of_refused rfl harmless
    · constructor <;> rintro _ ⟨⟩
      have after := sound₁.granted owns.found asks fresh admitted
      have done : s.Done now (.lock caller handle mode) _ _ := .lockGranted owns asks fresh admitted
      rw [State.granted, owns.own] at after done
      simp only [granted, meets_bind, meets_modify]
      exact (meets_of_run (run_checkLock after.linked (after.settled r.node))).mpr done
    · constructor <;> rintro _ ⟨⟩
      have after := sound₁.queue owns.found asks fresh refused
      have done : s.Done now (.lock caller handle mode) _ _ := .lockQueued owns asks fresh refused
      rw [owns.own] at after
      rw [State.queued, owns.own] at done
      simp only [meets_bind, meets_pure]
      exact (meets_of_run (run_checkLock after.linked (after.settled r.node))).mpr done

/-- An attempt for a lock succeeds at once or is refused. -/
lemma meets_tryLock (sound : s.Sound) : Meets (Call.op now (.tryLock caller handle mode)) s
    (s.Done now (.tryLock caller handle mode)) (s.Failed now (.tryLock caller handle mode)) := by
  have sound₁ := sound.contacted caller now
  rw [Call.op, meets_map, tryLock]
  refine meets_owned rfl fun r owns => ?_
  rw [meets_bind, meets_get]
  cases request : (s.contacted caller now).locks.tryRequest r.node caller handle mode with
  | mk result locks =>
    simp only [meets_bind, meets_modify, meets_ofExcept]
    rcases LockTable.tryRequest_cases request with
      ⟨why, rfl, rfl, harmless⟩ | ⟨asks, fresh, admitted, rfl, rfl⟩
    · constructor <;> rintro _ ⟨⟩
      exact failed_of_refused rfl harmless
    · constructor <;> rintro _ ⟨⟩
      have after := sound₁.granted owns.found asks fresh admitted
      have done : s.Done now (.tryLock caller handle mode) _ _ := .tryLock owns asks fresh admitted
      rw [State.granted, owns.own] at after done
      simp only [granted, meets_bind, meets_modify]
      exact (meets_of_run (run_checkLock after.linked (after.settled r.node))).mpr done

/-- A release takes the handle out of the lock and serves the waiters. -/
lemma meets_release (sound : s.Sound) : Meets (Call.op now (.release caller handle)) s
    (s.Done now (.release caller handle)) (s.Failed now (.release caller handle)) := by
  have sound₁ := sound.contacted caller now
  rw [Call.op, meets_bind, release]
  refine meets_owned rfl fun r owns => ?_
  rw [meets_bind, meets_get, meets_bind]
  cases held : (s.contacted caller now).locks.isHolder r.node handle with
  | true =>
    obtain ⟨holder, released⟩ := sound₁.linked.consistent.release_eq held
    have after := sound₁.released owns.found
    have done : s.Done now (.release caller handle) _ _ := .release owns held
    rw [State.released, owns.own] at after done
    rw [released, meets_of_run (run_ofExcept_ok _)]
    simp only [meets_bind, meets_modify]
    exact (meets_of_run (run_checkLock after.linked (after.settled r.node))).mpr done
  | false =>
    rw [LockTable.release_of_not_holder held]
    refine failed_of_refused rfl ?_
    rintro ⟨detail, eq⟩
    cases eq

/-! ## Requests of an owner

Who owns a handle and asks for its lock gets the answer that the lock gives. -/

/-- A request that the lock admits is granted on the spot. -/
lemma run_lock_granted (sound : s.Sound) (owns : s.Owns caller handle r) (asks : mode ≠ .none)
    (fresh : (s.locks.lock r.node).involves handle = false)
    (admitted : (s.locks.lock r.node).admits mode = true) :
    (Call.op now (.lock caller handle mode)).run s =
      (.ok (.lock (.granted ((s.locks.lock r.node).grant ⟨caller, handle⟩ mode).generation)),
        (s.contacted caller now).granted handle r mode) := by
  have sound₁ := sound.contacted caller now
  have request : (s.contacted caller now).locks.request r.node caller handle mode = _ :=
    (LockTable.request_of_fresh asks fresh).trans (if_pos admitted)
  have after := sound₁.granted owns.found asks fresh admitted
  have check := run_checkLock after.linked (after.settled r.node)
  refine run_of_meets ?_
  rw [Call.op, meets_map, lock, meets_bind, meets_of_run (run_nodeOf owns), meets_bind, meets_get,
    request]
  simp only [meets_bind, meets_modify, meets_ofExcept]
  constructor <;> rintro _ ⟨⟩
  rw [State.granted, owns.own] at check ⊢
  simp only [granted, meets_bind, meets_modify]
  exact (meets_of_run check).mpr ⟨rfl, rfl⟩

/-- A request that the lock does not admit waits. -/
lemma run_lock_queued (sound : s.Sound) (owns : s.Owns caller handle r) (asks : mode ≠ .none)
    (fresh : (s.locks.lock r.node).involves handle = false)
    (refused : (s.locks.lock r.node).admits mode = false) :
    (Call.op now (.lock caller handle mode)).run s =
      (.ok (.lock .queued), (s.contacted caller now).queued handle r mode) := by
  have sound₁ := sound.contacted caller now
  have request : (s.contacted caller now).locks.request r.node caller handle mode = _ :=
    (LockTable.request_of_fresh asks fresh).trans (if_neg (Bool.eq_false_iff.mp refused))
  have after := sound₁.queue owns.found asks fresh refused
  have check := run_checkLock after.linked (after.settled r.node)
  refine run_of_meets ?_
  rw [Call.op, meets_map, lock, meets_bind, meets_of_run (run_nodeOf owns), meets_bind, meets_get,
    request]
  simp only [meets_bind, meets_modify, meets_ofExcept]
  constructor <;> rintro _ ⟨⟩
  rw [owns.own] at check
  rw [State.queued, owns.own]
  simp only [meets_bind, meets_pure]
  exact (meets_of_run check).mpr ⟨trivial, rfl⟩

/-- An attempt that the lock admits is granted on the spot. -/
lemma run_tryLock_granted (sound : s.Sound) (owns : s.Owns caller handle r) (asks : mode ≠ .none)
    (fresh : (s.locks.lock r.node).involves handle = false)
    (admitted : (s.locks.lock r.node).admits mode = true) :
    (Call.op now (.tryLock caller handle mode)).run s =
      (.ok (.generation ((s.locks.lock r.node).grant ⟨caller, handle⟩ mode).generation),
        (s.contacted caller now).granted handle r mode) := by
  have sound₁ := sound.contacted caller now
  have request : (s.contacted caller now).locks.tryRequest r.node caller handle mode = _ :=
    (LockTable.tryRequest_of_fresh asks fresh).trans (if_pos admitted)
  have after := sound₁.granted owns.found asks fresh admitted
  have check := run_checkLock after.linked (after.settled r.node)
  refine run_of_meets ?_
  rw [Call.op, meets_map, tryLock, meets_bind, meets_of_run (run_nodeOf owns), meets_bind, meets_get,
    request]
  simp only [meets_bind, meets_modify, meets_ofExcept]
  constructor <;> rintro _ ⟨⟩
  rw [State.granted, owns.own] at check ⊢
  simp only [granted, meets_bind, meets_modify]
  exact (meets_of_run check).mpr ⟨rfl, rfl⟩

/-- An attempt that the lock does not admit fails. -/
lemma run_tryLock_busy (owns : s.Owns caller handle r) (asks : mode ≠ .none)
    (fresh : (s.locks.lock r.node).involves handle = false)
    (refused : (s.locks.lock r.node).admits mode = false) :
    (Call.op now (.tryLock caller handle mode)).run s =
      (.error (.refused .busy), s.contacted caller now) := by
  have request : (s.contacted caller now).locks.tryRequest r.node caller handle mode = _ :=
    (LockTable.tryRequest_of_fresh asks fresh).trans (if_neg (Bool.eq_false_iff.mp refused))
  rw [Call.op, run_map, tryLock, run_bind_of_ok (run_nodeOf owns), run_get_bind, request]
  rfl

/-! ## All calls -/

/-- Asking about a lock changes nothing. -/
lemma meets_lockInfo : Meets (Call.op now (.lockInfo path)) s (s.Done now (.lockInfo path))
    (s.Failed now (.lockInfo path)) := by
  simp only [Call.op, lockInfo, meets_map, meets_bind, meets_get, meets_ofExcept]
  refine ⟨fun id found => .lockInfo found, fun why failed => ⟨.inl rfl, ?_⟩⟩
  exact .refused (Tree.not_fatal_of_lookup failed)

/-- The check of all locks finds nothing. -/
lemma run_checkLocks (sound : s.Sound) (now : Instant) :
    (Call.op now .checkLocks).run s = (.ok .done, s) := by
  have passes : s.locks.checkAll = .ok () := by
    have each : ∀ nodes : List NodeId, nodes.forM s.locks.check = .ok () := by
      intro nodes
      induction nodes with
      | nil => rfl
      | cons i rest ih =>
        have first := LockTable.check_eq_ok (sound.linked.consistent.lock i) (sound.settled i)
        have sequence : (i :: rest).forM s.locks.check =
            s.locks.check i >>= fun _ => rest.forM s.locks.check := rfl
        rw [sequence, first]
        exact ih
    exact each _
  rw [Call.op, run_bind, checkLocks, run_get_bind, passes]
  rfl

/-- Every call is done, or it fails for a plain reason. -/
lemma meets_op (sound : s.Sound) (now : Instant) (call : Call) :
    Meets (call.op now) s (s.Done now call) (s.Failed now call) := by
  cases call with
  | createSession => exact .createSession
  | keepalive => exact meets_keepalive
  | destroySession => exact meets_destroySession sound
  | expireSessions as_of =>
    exact (meets_of_run (run_expireSessions sound as_of)).mpr (.expireSessions as_of)
  | openHandle => exact meets_openHandle sound
  | close => exact meets_close sound
  | mkdir => exact meets_mkdir sound
  | delete => exact meets_delete sound
  | pathExists => exact meets_pathExists
  | readdir => exact meets_readdir sound
  | attrSet => exact meets_attrSet sound
  | attrGet => exact meets_attrGet sound
  | attrDel => exact meets_attrDel sound
  | attrExists => exact meets_attrExists sound
  | attrList => exact meets_attrList sound
  | lock => exact meets_lock sound
  | tryLock => exact meets_tryLock sound
  | release => exact meets_release sound
  | lockInfo => exact meets_lockInfo
  | sizes => exact .sizes
  | checkLocks => exact (meets_of_run (run_checkLocks sound now)).mpr .checkLocks

end Coordination.Op
