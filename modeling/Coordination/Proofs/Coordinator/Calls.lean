import Coordination.Coordinator.Basic
import Coordination.Proofs.Coordinator.Effects

/-!
# What calls do

`Done` lists, call by call, the conditions under which a call succeeds, what it answers and what it
leaves of the tables. `meets_op` says that on sound tables every call either is done in this way or
fails for a plain reason with nothing changed but the contact of its caller.
-/

namespace Coordination

/-- The session in whose name a call is made, if that counts as contact. -/
def Call.caller? : Call → Option SessionId
  | .openHandle session _ _ _ _ | .close session _ | .mkdir session _ | .delete session _
  | .pathExists session _ | .readdir session _ | .attrSet session _ _ _ | .attrGet session _ _
  | .attrDel session _ _ | .attrExists session _ _ | .attrList session _ | .lock session _ _
  | .tryLock session _ _ | .release session _ => some session
  | .createSession | .keepalive _ | .destroySession _ | .expireSessions _ | .lockInfo _ | .sizes
  | .checkLocks => none

namespace State

/-- A call has changed nothing but the contact of its caller, and the reason is plain. -/
def Failed (s : State) (now : Instant) (call : Call) (e : Interruption) (s' : State) : Prop :=
  (s' = s ∨ ∃ caller, call.caller? = some caller ∧ s' = s.contacted caller now) ∧
    e.Plain s.store.fault

/-- The handle is open in the name of the session, which is live. -/
structure Owns (s : State) (session : SessionId) (handle : HandleId) (r : Handle) : Prop where
  live : s.Live session
  found : s.handles.get? handle = some r
  own : r.session = session

/-- A call has been done: what it answers and what it leaves. -/
inductive Done (now : Instant) (s : State) : Call → Answer → State → Prop
  | createSession : Done now s .createSession
      (.session s.sessions.next (s.sessions.create now).1.2)
      { s with sessions := (s.sessions.create now).2 }
  | keepalive {session : SessionId} {x : Session} (live : s.Live session)
      (found : (s.contacted session now).sessions.get? session = some x) :
      Done now s (.keepalive session) (.deadline (s.sessions.deadlineOf x)) (s.contacted session now)
  | destroySession {session : SessionId} (live : s.Live session) :
      Done now s (.destroySession session) .done ((s.marked session).teardown session)
  | expireSessions (as_of : Instant) : Done now s (.expireSessions as_of)
      (.expired (s.sessions.tick as_of).1) (s.expired as_of)
  | openHandle {session : SessionId} {path : String} {flags : OpenFlags} {interest : Interest}
      {callback : Callback} {node : NodeId} (live : s.Live session)
      (valid : Path.isValid path = true) (found : s.tree.find? path = some node)
      (old : (flags.meets .create && flags.meets .fresh) = false) :
      Done now s (.openHandle session path flags interest callback) (.handle s.handles.next)
        ((s.contacted session now).seated ⟨session, node, interest, callback⟩)
  | openNew {session : SessionId} {path : String} {flags : OpenFlags} {interest : Interest}
      {callback : Callback} {above : NodeId} {st : Store} (live : s.Live session)
      (asked : flags.meets .create = true) (checked : s.tree.checkCreate path = .ok above)
      (stored : s.recorded (flags.meets .ephemeral)
        (·.put (Record.key path) (Record.mk (flags.meets .directory) .empty).encode) = .ok st) :
      Done now s (.openHandle session path flags interest callback) (.handle s.handles.next)
        ((((s.contacted session now).withStore st).grown above path (flags.meets .directory)
          (flags.meets .ephemeral)).seated ⟨session, s.tree.next, interest, callback⟩)
  | close {session : SessionId} {handle : HandleId} {r : Handle} (owns : s.Owns session handle r) :
      Done now s (.close session handle) .done ((s.contacted session now).closed handle r)
  | mkdir {session : SessionId} {path : String} {above : NodeId} {st : Store}
      (live : s.Live session) (checked : s.tree.checkCreate path = .ok above)
      (stored : s.recorded false
        (·.put (Record.key path) (Record.mk true .empty).encode) = .ok st) :
      Done now s (.mkdir session path) .done
        (((s.contacted session now).withStore st).grown above path true false)
  | delete {session : SessionId} {path : String} {id above : NodeId} {n : Node} {st : Store}
      (live : s.Live session) (checked : s.tree.checkRemove path s.locks = .ok id)
      (node : s.tree.get? id = some n) (foundAbove : s.tree.find? (Path.parent path) = some above)
      (stored : s.recorded n.ephemeral (·.delete (Record.key path)) = .ok st) :
      Done now s (.delete session path) .done
        (((s.contacted session now).withStore st).deleted id above path n)
  | pathExists {session : SessionId} {path : String} (live : s.Live session) :
      Done now s (.pathExists session path)
        (.truth (Path.isValid path && (s.tree.find? path).isSome)) (s.contacted session now)
  | readdir {session : SessionId} {handle : HandleId} {r : Handle} {n : Node}
      (owns : s.Owns session handle r) (node : s.tree.get? r.node = some n) :
      Done now s (.readdir session handle) (.names n.children.keys) (s.contacted session now)
  | attrSet {session : SessionId} {handle : HandleId} {r : Handle} {n : Node} {name : String}
      {value : Bytes} {st : Store} (owns : s.Owns session handle r)
      (node : s.tree.get? r.node = some n)
      (stored : s.recorded n.ephemeral
        (·.put (Record.key n.path) (n.setAttr name value).record.encode) = .ok st) :
      Done now s (.attrSet session handle name value) .done
        (((s.contacted session now).withStore st).edited r.node (·.setAttr name value)
          (.attrSet name))
  | attrGet {session : SessionId} {handle : HandleId} {r : Handle} {n : Node} {name : String}
      {value : Bytes} (owns : s.Owns session handle r) (node : s.tree.get? r.node = some n)
      (found : n.attrs.get? name = some value) :
      Done now s (.attrGet session handle name) (.value value) (s.contacted session now)
  | attrDel {session : SessionId} {handle : HandleId} {r : Handle} {n : Node} {name : String}
      {st : Store} (owns : s.Owns session handle r) (node : s.tree.get? r.node = some n)
      (found : name ∈ n.attrs)
      (stored : s.recorded n.ephemeral
        (·.put (Record.key n.path) (n.dropAttr name).record.encode) = .ok st) :
      Done now s (.attrDel session handle name) .done
        (((s.contacted session now).withStore st).edited r.node (·.dropAttr name)
          (.attrDel name))
  | attrExists {session : SessionId} {handle : HandleId} {r : Handle} {n : Node} {name : String}
      (owns : s.Owns session handle r) (node : s.tree.get? r.node = some n) :
      Done now s (.attrExists session handle name) (.truth (n.attrs.contains name))
        (s.contacted session now)
  | attrList {session : SessionId} {handle : HandleId} {r : Handle} {n : Node}
      (owns : s.Owns session handle r) (node : s.tree.get? r.node = some n) :
      Done now s (.attrList session handle) (.names n.attrs.keys) (s.contacted session now)
  | lockGranted {session : SessionId} {handle : HandleId} {r : Handle} {mode : LockMode}
      (owns : s.Owns session handle r) (asks : mode ≠ .none)
      (fresh : (s.locks.lock r.node).involves handle = false)
      (admitted : (s.locks.lock r.node).admits mode = true) :
      Done now s (.lock session handle mode)
        (.lock (.granted ((s.locks.lock r.node).grant ⟨session, handle⟩ mode).generation))
        ((s.contacted session now).granted handle r mode)
  | lockQueued {session : SessionId} {handle : HandleId} {r : Handle} {mode : LockMode}
      (owns : s.Owns session handle r) (asks : mode ≠ .none)
      (fresh : (s.locks.lock r.node).involves handle = false)
      (refused : (s.locks.lock r.node).admits mode = false) :
      Done now s (.lock session handle mode) (.lock .queued)
        ((s.contacted session now).queued handle r mode)
  | tryLock {session : SessionId} {handle : HandleId} {r : Handle} {mode : LockMode}
      (owns : s.Owns session handle r) (asks : mode ≠ .none)
      (fresh : (s.locks.lock r.node).involves handle = false)
      (admitted : (s.locks.lock r.node).admits mode = true) :
      Done now s (.tryLock session handle mode)
        (.generation ((s.locks.lock r.node).grant ⟨session, handle⟩ mode).generation)
        ((s.contacted session now).granted handle r mode)
  | release {session : SessionId} {handle : HandleId} {r : Handle}
      (owns : s.Owns session handle r) (held : s.locks.isHolder r.node handle = true) :
      Done now s (.release session handle) .done ((s.contacted session now).released handle r)
  | lockInfo {path : String} {id : NodeId} (found : s.tree.lookup path = .ok id) :
      Done now s (.lockInfo path) (.lockView (s.locks.lock id)) s
  | sizes : Done now s .sizes (.sizes ⟨s.tree.size, s.sessions.size, s.handles.size⟩) s
  | checkLocks : Done now s .checkLocks .done s

/-- What is done keeps the tables sound. -/
lemma Sound.done {s s' : State} (sound : s.Sound) {now : Instant} {call : Call} {answer : Answer}
    (done : s.Done now call answer s') : s'.Sound := by
  have contacted := fun session => sound.contacted session now
  cases done with
  | createSession => exact sound.created now
  | keepalive => exact contacted _
  | destroySession => exact sound.destroyed _
  | expireSessions as_of => exact sound.expired as_of
  | openHandle live valid found =>
    obtain ⟨n, node, -⟩ := sound.linked.tree.get?_of_find? found
    obtain ⟨x, owner⟩ := live.contacted
    exact (contacted _).seated owner node
  | openNew live asked checked stored =>
    obtain ⟨x, owner⟩ := live.contacted
    exact ((contacted _).withStore _).grown_seated checked owner rfl
  | close owns => exact (contacted _).closed owns.found
  | mkdir live checked stored => exact ((contacted _).withStore _).grown checked
  | delete live checked node foundAbove =>
    exact (((contacted _).withStore _).removed checked node foundAbove).reap _
  | pathExists => exact contacted _
  | readdir => exact contacted _
  | attrSet =>
    exact ((contacted _).withStore _).edited _ (Node.sameShape_setAttr _ _) (fun _ => rfl) _
  | attrGet => exact contacted _
  | attrDel =>
    exact ((contacted _).withStore _).edited _ (Node.sameShape_dropAttr _) (fun _ => rfl) _
  | attrExists => exact contacted _
  | attrList => exact contacted _
  | lockGranted owns asks fresh admitted =>
    exact (contacted _).granted owns.found asks fresh admitted
  | lockQueued owns asks fresh refused => exact (contacted _).queue owns.found asks fresh refused
  | tryLock owns asks fresh admitted => exact (contacted _).granted owns.found asks fresh admitted
  | release owns => exact (contacted _).released owns.found
  | lockInfo => exact sound
  | sizes => exact sound
  | checkLocks => exact sound

end State

namespace Op

open State

variable {α : Type} {s : State} {now : Instant} {call : Call} {caller : SessionId}
variable {handle : HandleId} {done : α → State → Prop}

/-! ## Failures -/

/-- What is left undone after the contact of the caller has failed. -/
lemma failed_of_undone (named : call.caller? = some caller) {e : Interruption} {s' : State}
    (undone : Undone (s.contacted caller now) e s') : s.Failed now call e s' :=
  ⟨.inr ⟨caller, named, undone.1⟩, undone.2⟩

/-- A refusal after the contact of the caller is a failure. -/
lemma failed_of_refused (named : call.caller? = some caller) {why : Failure}
    (harmless : ¬ why.IsFatal) : s.Failed now call (.refused why) (s.contacted caller now) :=
  failed_of_undone named (undone_of_refused harmless)

/-- What follows a contact decides what a call ends with. -/
lemma meets_contacted {f : Unit → Op α}
    (rest : s.Live caller → (f ()).Meets (s.contacted caller now) done (s.Failed now call)) :
    (touch caller now >>= f).Meets s done (s.Failed now call) := by
  rw [meets_bind]
  refine meets_touch.imp ?_ fun e s' undone => ⟨.inl undone.1, undone.2⟩
  rintro _ _ ⟨rfl, live⟩
  exact rest live

/-- What follows the look-up of a handle decides what a call ends with. -/
lemma meets_owned (named : call.caller? = some caller) {f : NodeId → Op α}
    (rest : ∀ r, s.Owns caller handle r →
      (f r.node).Meets (s.contacted caller now) done (s.Failed now call)) :
    (nodeOf caller handle now >>= f).Meets s done (s.Failed now call) := by
  rw [meets_bind]
  refine meets_nodeOf.imp ?_ ?_
  · rintro node s' ⟨rfl, live, r, found, own, rfl⟩
    exact rest r ⟨live, found, own⟩
  · rintro e s' ⟨same | same, plain⟩
    · exact ⟨.inl same, plain⟩
    · exact ⟨.inr ⟨caller, named, same⟩, plain⟩

/-- Contact from a live session is recorded. -/
lemma run_touch (live : s.Live caller) :
    (touch caller now).run s = (.ok (), s.contacted caller now) := by
  obtain ⟨x, found, alive⟩ := live
  rw [touch, run_get_bind, SessionTable.touch, SessionTable.live_eq_ok.mpr ⟨found, alive⟩]
  rfl

/-- The owner of a handle finds its node. -/
lemma run_nodeOf {r : Handle} (owns : s.Owns caller handle r) :
    (nodeOf caller handle now).run s = (.ok r.node, s.contacted caller now) := by
  obtain ⟨live, opened, own⟩ := owns
  have got : (s.contacted caller now).handles.get handle = .ok r := by
    have opened : (s.contacted caller now).handles.get? handle = some r := opened
    rw [HandleTable.get, opened]
  rw [nodeOf, run_bind_of_ok (run_touch live), run_get_bind, got,
    run_bind_of_ok (run_ofExcept_ok r), if_neg (not_not.mpr own)]
  rfl

/-- The node of an open handle exists. -/
lemma meets_node {f : Node → Op α} {stopped : Interruption → State → Prop} (linked : s.Linked)
    {r : Handle} (found : s.handles.get? handle = some r)
    (rest : ∀ n, s.tree.get? r.node = some n → (f n).Meets s done stopped) :
    (node r.node >>= f).Meets s done stopped := by
  obtain ⟨n, foundN, -⟩ := linked.node_of_handle handle r found
  rw [meets_bind, meets_of_run (run_node foundN)]
  exact rest n foundN

/-! ## Sessions -/

/-- A keepalive renews the lease of a live session. -/
lemma meets_keepalive {session : SessionId} : Meets (Call.op now (.keepalive session)) s
    (s.Done now (.keepalive session)) (s.Failed now (.keepalive session)) := by
  simp only [Call.op, keepalive, meets_map, meets_bind, meets_get, meets_ofExcept, meets_modify]
  cases live : s.sessions.live session with
  | error why =>
    have failed : s.sessions.renew session now = .error why := by
      rw [SessionTable.renew, SessionTable.touch, live]
      rfl
    rw [failed]
    constructor <;> rintro _ ⟨⟩
    exact ⟨.inl rfl, .refused (SessionTable.live_error live)⟩
  | ok x =>
    obtain ⟨found, alive⟩ := SessionTable.live_eq_ok.mp live
    have found' : (s.contacted session now).sessions.get? session =
        some (x.contact (s.sessions.millis now)) := by
      rw [contacted, SessionTable.get?_modify, if_pos rfl, found]
      rfl
    have alive' : (x.contact (s.sessions.millis now)).isLive = true := by
      simp [Session.isLive_iff, Session.state_contact alive]
    have live' := SessionTable.live_eq_ok.mpr ⟨found', alive'⟩
    have renewed : s.sessions.renew session now = .ok
        (s.sessions.deadlineOf (x.contact (s.sessions.millis now)),
          (s.contacted session now).sessions) := by
      have later : (s.sessions.modify session (·.contact (s.sessions.millis now))).live session =
          .ok (x.contact (s.sessions.millis now)) := live'
      rw [SessionTable.renew, SessionTable.touch, live]
      simp only [bind, Except.bind, pure, Except.pure, SessionTable.deadline, later]
      rfl
    rw [renewed]
    constructor <;> rintro _ ⟨⟩
    exact .keepalive ⟨x, found, alive⟩ found'

/-- The destruction of a live session cannot be interrupted. -/
lemma run_destroySession (sound : s.Sound) {session : SessionId} (live : s.Live session) :
    (Call.op now (.destroySession session)).run s =
      (.ok .done, (s.marked session).teardown session) := by
  obtain ⟨x, found, alive⟩ := live
  obtain ⟨linked, tidy⟩ := sound.marked session
  have expired : s.sessions.expire session = .ok (s.marked session).sessions := by
    rw [SessionTable.expire, SessionTable.live_eq_ok.mpr ⟨found, alive⟩]
    rfl
  have torn : (teardown session).run (s.marked session) =
      (.ok (), (s.marked session).teardown session) := run_teardown linked tidy rfl
  rw [Call.op, run_bind, destroySession, run_get_bind, expired,
    run_bind_of_ok (run_ofExcept_ok _), run_modify_bind]
  erw [torn]
  rfl

/-- A live session ends by request. -/
lemma meets_destroySession (sound : s.Sound) {session : SessionId} :
    Meets (Call.op now (.destroySession session)) s (s.Done now (.destroySession session))
      (s.Failed now (.destroySession session)) := by
  cases looked : s.sessions.live session with
  | ok x =>
    have live : s.Live session := ⟨x, SessionTable.live_eq_ok.mp looked⟩
    exact (meets_of_run (run_destroySession sound live)).mpr (.destroySession live)
  | error why =>
    have failed : s.sessions.expire session = .error why := by
      rw [SessionTable.expire, looked]
      rfl
    simp only [Call.op, destroySession, meets_bind, meets_get, meets_ofExcept, failed]
    constructor <;> rintro _ ⟨⟩
    exact ⟨.inl rfl, .refused (SessionTable.live_error looked)⟩

/-- The end of sessions that are to end cannot be interrupted. -/
lemma run_teardownAll {list : List SessionId} (linked : s.Linked)
    (tidy : s.Tidy {i | i ∈ list} ∅) (apart : list.Nodup) :
    (list.forM teardown).run s = (.ok (), list.foldl State.teardown s) := by
  refine run_forM (g := State.teardown)
    (I := fun list s => s.Linked ∧ s.Tidy {i | i ∈ list} ∅ ∧ list.Nodup) ?_ list
    ⟨linked, tidy, apart⟩
  rintro i rest s ⟨linked, tidy, apart⟩
  obtain ⟨fresh, apart⟩ := List.nodup_cons.mp apart
  obtain ⟨linked', tidy', -⟩ := linked.teardown tidy (List.mem_cons_self ..)
  rw [cons_sdiff fresh] at tidy'
  exact ⟨run_teardown linked tidy (List.mem_cons_self ..), linked', tidy', apart⟩

/-- Nor can the expiry of leases. -/
lemma run_expireSessions (sound : s.Sound) (as_of : Instant) :
    (Call.op now (.expireSessions as_of)).run s =
      (.ok (.expired (s.sessions.tick as_of).1), s.expired as_of) := by
  obtain ⟨linked, tidy⟩ := sound.ticked as_of
  have run := run_teardownAll linked tidy (s.sessions.nodup_tick as_of)
  rw [Call.op, run_map, expireSessions, run_get_bind]
  dsimp only
  rw [run_modify_bind, run_bind]
  erw [run]
  rfl

end Op

end Coordination
