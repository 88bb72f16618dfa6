import Coordination.Proofs.Coordinator.Allocation
import Coordination.Proofs.Coordinator.Safety

/-!
# Stale identifiers

A call in the name of a session starts with a look-up of the session, and a call on a handle goes on
with a look-up of the handle. As identifiers never come back, whoever uses one that has gone out of
use is told so in every continuation of the run.
-/

namespace Coordination

namespace Op

variable {α β γ : Type} {first : Op α} {op : Op β}

/-- The program runs another one first. -/
def StartsWith (op : Op β) (first : Op α) : Prop := ∃ rest, op = first >>= rest

/-- A sequence starts with its first part. -/
lemma startsWith_bind (first : Op α) (rest : α → Op β) : (first >>= rest).StartsWith first :=
  ⟨rest, rfl⟩

/-- More may follow. -/
lemma StartsWith.bind (starts : op.StartsWith first) (rest : β → Op γ) :
    (op >>= rest).StartsWith first := by
  obtain ⟨others, rfl⟩ := starts
  exact ⟨fun a => others a >>= rest, bind_assoc ..⟩

/-- The result may be changed. -/
lemma StartsWith.map (starts : op.StartsWith first) (f : β → γ) : (f <$> op).StartsWith first := by
  rw [map_eq_pure_bind]
  exact starts.bind _

/-- The start of a start is a start. -/
lemma StartsWith.trans (starts : op.StartsWith first) {start : Op γ}
    (opens : first.StartsWith start) : op.StartsWith start := by
  obtain ⟨rest, rfl⟩ := starts
  exact opens.bind rest

/-- What interrupts the start of a program interrupts the program. -/
lemma StartsWith.run (starts : op.StartsWith first) {s s' : State} {e : Interruption}
    (stopped : first.run s = (.error e, s')) : op.run s = (.error e, s') := by
  obtain ⟨rest, rfl⟩ := starts
  rw [run_bind, stopped]

end Op

namespace Call

/-- The handle that a call works on. -/
def handle? : Call → Option HandleId
  | .close _ handle | .readdir _ handle | .attrSet _ handle _ _ | .attrGet _ handle _
  | .attrDel _ handle _ | .attrExists _ handle _ | .attrList _ handle | .lock _ handle _
  | .tryLock _ handle _ | .release _ handle => some handle
  | .createSession | .keepalive _ | .destroySession _ | .expireSessions _ | .openHandle _ _ _ _ _
  | .mkdir _ _ | .delete _ _ | .pathExists _ _ | .lockInfo _ | .sizes | .checkLocks => none

/-- The session that a call works on, or in whose name it is made. -/
def session? : Call → Option SessionId
  | .keepalive session | .destroySession session => some session
  | call => call.caller?

/-- A call that works for a session is a keepalive, its end, or names it as the caller. -/
lemma session_cases {call : Call} {session : SessionId} (works : call.session? = some session) :
    call = .keepalive session ∨ call = .destroySession session ∨ call.caller? = some session := by
  cases call with
  | keepalive | destroySession =>
    cases works
    simp
  | _ => exact .inr (.inr works)

end Call

namespace Op

open State

variable {s : State} {call : Call} {session caller : SessionId} {handle : HandleId}

/-- Looking for the node of a handle starts with the contact of the caller. -/
lemma nodeOf_startsWith (caller : SessionId) (handle : HandleId) (now : Instant) :
    (nodeOf caller handle now).StartsWith (touch caller now) := startsWith_bind ..

/-- A call on a handle starts with its look-up. -/
lemma startsWith_nodeOf (named : call.caller? = some caller) (works : call.handle? = some handle)
    (now : Instant) : (call.op now).StartsWith (nodeOf caller handle now) := by
  cases call with
  | close | attrSet | attrDel | release =>
    cases named
    cases works
    exact StartsWith.bind (startsWith_bind ..) _
  | readdir | attrGet | attrExists | attrList | lock | tryLock =>
    cases named
    cases works
    exact StartsWith.map (startsWith_bind ..) _
  | _ => cases works

/-- A call in the name of a session starts with its contact. -/
lemma startsWith_touch (named : call.caller? = some caller) (now : Instant) :
    (call.op now).StartsWith (touch caller now) := by
  cases call with
  | openHandle | pathExists =>
    cases named
    exact StartsWith.map (startsWith_bind ..) _
  | mkdir | delete =>
    cases named
    exact StartsWith.bind (startsWith_bind ..) _
  | close | readdir | attrSet | attrGet | attrDel | attrExists | attrList | lock | tryLock
  | release =>
    exact (startsWith_nodeOf named rfl now).trans (nodeOf_startsWith ..)
  | _ => cases named

/-- A session that is not live is reported as missing. -/
lemma live_of_dead (dead : ¬ s.Live session) :
    s.sessions.live session = .error (.noSuchSession session) := by
  refine SessionTable.live_of_not fun x found => Bool.eq_false_iff.mpr fun alive => ?_
  exact dead ⟨x, found, alive⟩

/-- Contact is refused unless the session is live. -/
lemma run_touch_of_not_live (dead : ¬ s.Live caller) (now : Instant) :
    (touch caller now).run s = (.error (.refused (.noSuchSession caller)), s) := by
  rw [touch, run_get_bind, SessionTable.touch, live_of_dead dead]
  rfl

/-- Nobody finds a handle that is not open. -/
lemma run_nodeOf_of_absent (live : s.Live caller) (absent : s.handles.get? handle = none)
    (now : Instant) : (nodeOf caller handle now).run s =
      (.error (.refused (.badHandle handle)), s.contacted caller now) := by
  have refused : (s.contacted caller now).handles.get handle = .error (.badHandle handle) := by
    have absent : (s.contacted caller now).handles.get? handle = none := absent
    rw [HandleTable.get, absent]
  rw [nodeOf, run_bind_of_ok (run_touch live), run_get_bind, refused]
  rfl

/-- A call in the name of a session that is not live, or on it, is refused. -/
lemma run_of_not_live (works : call.session? = some session) (dead : ¬ s.Live session)
    (now : Instant) :
    (call.op now).run s = (.error (.refused (.noSuchSession session)), s) := by
  have refused := live_of_dead dead
  rcases Call.session_cases works with rfl | rfl | named
  · rw [Call.op, run_map, keepalive, run_get_bind, SessionTable.renew, SessionTable.touch, refused]
    rfl
  · rw [Call.op, run_bind, destroySession, run_get_bind, SessionTable.expire, refused]
    rfl
  · exact (startsWith_touch named now).run (run_touch_of_not_live dead now)

/-- A call of a live session on a handle that is not open is refused. -/
lemma run_of_absent (named : call.caller? = some caller) (works : call.handle? = some handle)
    (live : s.Live caller) (absent : s.handles.get? handle = none) (now : Instant) :
    (call.op now).run s = (.error (.refused (.badHandle handle)), s.contacted caller now) :=
  (startsWith_nodeOf named works now).run (run_nodeOf_of_absent live absent now)

end Op

namespace State

variable {s s' : State} {call : Call} {answer : Answer} {now : Instant} {session : SessionId}
variable {handle : HandleId} {r : Handle}

/-! ## Handles and sessions that end -/

/-- The session is among those that end with the call. -/
lemma Sound.ends_of_dooms (sound : s.Sound) (done : s.Done now call answer s')
    (dooms : call.Dooms s session) :
    ∃ (ended : Set SessionId) (t : State), session ∈ ended ∧ t.handles = s.handles ∧
      t.Ends ended s' := by
  rcases dooms with rfl | ⟨as_of, rfl, due⟩
  · cases done
    obtain ⟨linked, tidy⟩ := sound.marked session
    obtain ⟨-, -, ends⟩ := linked.teardown tidy rfl
    exact ⟨{session}, s.marked session, rfl, rfl, ends⟩
  · cases done
    obtain ⟨linked, tidy⟩ := sound.ticked as_of
    obtain ⟨-, ends⟩ := linked.teardownAll tidy (s.sessions.nodup_tick as_of)
    exact ⟨_, s.ticked as_of, due, rfl, ends⟩

/-- A session is gone once a call that ends it is done. -/
lemma Sound.session_ended (sound : s.Sound) (done : s.Done now call answer s')
    (dooms : call.Dooms s session) : s'.sessions.get? session = none := by
  obtain ⟨ended, t, mem, -, ends⟩ := sound.ends_of_dooms done dooms
  rw [← Option.not_isSome_iff_eq_none, ends.session]
  exact fun ⟨_, spared⟩ => spared mem

/-- So is a handle. -/
lemma Sound.handle_ended (sound : s.Sound) (done : s.Done now call answer s')
    (found : s.handles.get? handle = some r) (closes : call.Closes s handle r) :
    s'.handles.get? handle = none := by
  rcases closes with rfl | ⟨caller, path, rfl, seat⟩ | dooms
  · cases done with
    | @close _ _ r' owns =>
      obtain rfl : r = r' := Option.some.inj (found.symm.trans owns.found)
      obtain ⟨lost, sheds, -⟩ := (sound.contacted r.session now).sheds_closed owns.found
      exact sheds.closes.ended handle rfl
  · cases done with
    | @delete _ _ id above n st live checked node foundAbove =>
      obtain ⟨-, -, foundPath, -⟩ := Tree.checkRemove_eq_ok_iff.mp checked
      obtain rfl : id = r.node := Option.some.inj (foundPath.symm.trans seat)
      obtain ⟨lost, sheds⟩ :=
        ((sound.contacted caller now).withStore st).sheds_deleted checked node foundAbove
      exact sheds.closes.ended handle ((sound.linked.mem_node_iff found node).mpr rfl)
  · obtain ⟨ended, t, mem, same, ends⟩ := sound.ends_of_dooms done dooms
    exact ends.closes.1 handle r (same ▸ found) mem

end State

namespace Coordinator

variable {allowed : Set Fault} {c c' : Coordinator} {call : Call} {session : SessionId}
variable {handle : HandleId} {r : Handle} {kind : Entity}

/-- However the store behaves, the call is refused for a reason; a coordinator that serves nobody
refuses it as it refuses every call. -/
structure Refuses (c : Coordinator) (call : Call) (why : Failure) : Prop where
  serving : c.Serves → ∀ (fault : StoreCall → Option Fault) now,
    ((c.withFaults fault).perform now call).result = .error (.refused why)
  stopped : ¬ c.Serves → ∀ (fault : StoreCall → Option Fault) now, ∃ detail,
    ((c.withFaults fault).perform now call).result = .error (.refused (.corrupted detail))

/-- No call of a live session on the handle gets further than its look-up. -/
def Disowns (c : Coordinator) (handle : HandleId) : Prop :=
  ∀ call caller, call.handle? = some handle → call.caller? = some caller → c.state.Live caller →
    c.Refuses call (.badHandle handle)

/-- No call on the session or in its name gets further than its look-up. -/
def Excludes (c : Coordinator) (session : SessionId) : Prop :=
  ∀ call, call.session? = some session → c.Refuses call (.noSuchSession session)

/-- Something holds wherever a run goes on to. -/
def Henceforth (allowed : Set Fault) (c : Coordinator) (P : Coordinator → Prop) : Prop :=
  ∀ c', Onward allowed (fun _ => True) c c' → P c'

/-- A call that stops at a harmless reason on the tables is refused. -/
lemma refuses_of_run {why : Failure} (harmless : ¬ why.IsFatal)
    (run : ∀ (fault : StoreCall → Option Fault) now, ∃ s',
      (call.op now).run (c.withFaults fault).state = (.error (.refused why), s')) :
    c.Refuses call why where
  serving := by
    rintro ⟨serving, usable⟩ fault now
    obtain ⟨s', run⟩ := run fault now
    have serving : (c.withFaults fault).halted = false := serving
    rw [perform_of_refused serving usable harmless run]
  stopped := by
    intro stopped fault now
    unfold perform execute
    split
    · exact ⟨_, rfl⟩
    · rename_i serving
      split
      · exact ⟨_, rfl⟩
      · rename_i usable
        exact absurd ⟨Bool.eq_false_iff.mpr serving, Bool.eq_false_iff.mpr usable⟩ stopped

/-- Nobody gets anything done with a handle that is not open. -/
lemma disowns_of_absent (absent : c.state.handles.get? handle = none) : c.Disowns handle := by
  intro call caller works named live
  refine refuses_of_run (by simp [Failure.IsFatal]) fun fault now => ?_
  have live : (c.withFaults fault).state.Live caller := live
  exact ⟨_, Op.run_of_absent named works live absent now⟩

/-- Nor in the name of a session that does not exist. -/
lemma excludes_of_absent (absent : c.state.sessions.get? session = none) :
    c.Excludes session := by
  intro call works
  refine refuses_of_run (by simp [Failure.IsFatal]) fun fault now => ?_
  have dead : ¬ (c.withFaults fault).state.Live session := by
    rintro ⟨x, found, -⟩
    cases absent.symm.trans found
  exact ⟨_, Op.run_of_not_live works dead now⟩

/-- An identifier is in use at a point of a run. Once a call that ends its use is done, and wherever
it is found not to be in use any more, `refused` holds for the rest of the run. -/
structure Retires (allowed : Set Fault) (c : Coordinator) (id : Id kind) (ends : Call → Prop)
    (refused : Coordinator → Prop) : Prop where
  done : ∀ (fault : StoreCall → Option Fault) now call answer,
    (∀ kind f, fault kind = some f → f ∈ allowed) → ends call →
    ((c.withFaults fault).perform now call).result = .ok answer →
    ((c.withFaults fault).perform now call).coordinator.Henceforth allowed refused
  found : c.Henceforth allowed fun c' => c'.state.object? id = none →
    c'.Henceforth allowed refused

/-- What is refused wherever an identifier is not in use is refused ever after its use has ended. -/
lemma Reachable.retires (reached : c.Reachable allowed) {id : Id kind} {o : Object kind}
    (stands : c.state.object? id = some o) {ends : Call → Prop} {refused : Coordinator → Prop}
    (gone : ∀ fault now call answer s', ends call →
      (c.withFaults fault).state.Done now call answer s' → s'.object? id = none)
    (refuse : ∀ c', c'.state.object? id = none → refused c') :
    c.Retires allowed id ends refused where
  done fault now call answer may ending result := by
    have sound : (c.withFaults fault).state.Sound := reached.sound.withStore _
    obtain ⟨s', deed, state⟩ := done_of_ok sound result
    have absent : ((c.withFaults fault).perform now call).coordinator.state.object? id = none := by
      rw [state]
      exact gone fault now call answer s' ending deed
    have before := reached.sound.lt_next stands
    have used := (advances_perform reached.sound fault now call).used id before
    intro c' led
    exact refuse c' ((led.advances (reached.perform now call may)).absent used absent)
  found c₁ led absent := by
    have used := (led.advances reached).used id (reached.sound.lt_next stands)
    intro c₂ later
    exact refuse c₂ ((later.advances (led.reachable reached)).absent used absent)

/-- A handle that has ended is refused ever after. -/
lemma Reachable.retires_handle (reached : c.Reachable allowed)
    (opened : c.state.handles.get? handle = some r) :
    c.Retires allowed handle (·.Closes c.state handle r) (·.Disowns handle) := by
  have stands : c.state.object? handle = some r := opened
  refine reached.retires stands ?_ fun c' => disowns_of_absent
  intro fault now call answer s' closes deed
  have sound : (c.withFaults fault).state.Sound := reached.sound.withStore _
  exact sound.handle_ended deed opened closes

/-- A session that has ended is refused ever after. -/
lemma Reachable.retires_session (reached : c.Reachable allowed) {x : Session}
    (stands : c.state.sessions.get? session = some x) :
    c.Retires allowed session (·.Dooms c.state session) (·.Excludes session) := by
  have stands : c.state.object? session = some () := Option.map_eq_some_iff.mpr ⟨x, stands, rfl⟩
  refine reached.retires stands ?_ ?_
  · intro fault now call answer s' dooms deed
    have sound : (c.withFaults fault).state.Sound := reached.sound.withStore _
    exact Option.map_eq_none_iff.mpr (sound.session_ended deed dooms)
  · exact fun c' absent => excludes_of_absent (Option.map_eq_none_iff.mp absent)

/-- The identifiers of a kind that a run has given out ascend, those in use are among them, and the
next one that is answered comes after them all. -/
structure Orderly (c : Coordinator) (kind : Entity) (given : List (Id kind)) : Prop where
  ascending : given.Pairwise (· < ·)
  used : ∀ id ∈ c.state.ids kind, id ∈ given
  answered : ∀ (fault : StoreCall → Option Fault) now call answer id,
    ((c.withFaults fault).perform now call).result = .ok answer → answer.id? kind = some id →
    (∀ old ∈ given, old < id) ∧
      id ∈ c.state.added ((c.withFaults fault).perform now call).coordinator.state kind

/-- What a run has given out is orderly. -/
lemma Allots.orderly {given : List (Id kind)} (allots : Allots allowed kind given c) :
    c.Orderly kind given where
  ascending := allots.ascending
  used := allots.mem
  answered _ _ _ _ _ result answered := allots.answers result answered

/-- Identifiers that have gone out of use never come back, whatever the store does.

Once a handle has been closed, its node deleted or its session ended, every call of a live session
on it is refused as a bad handle for the rest of the run. Once a session has been destroyed or has
expired, every call on it or in its name is refused as there is no such session. Identifiers of each
kind are given out in ascending order, those of recovered nodes without a gap, and stand for nothing
else as long as the run goes on. Only a store that dies can stop the coordinator from serving. -/
theorem Reachable.identifiers_never_return (reached : c.Reachable allowed) :
    (∀ handle r, c.state.handles.get? handle = some r →
      c.Retires allowed handle (·.Closes c.state handle r) (·.Disowns handle)) ∧
    (∀ session x, c.state.sessions.get? session = some x →
      c.Retires allowed session (·.Dooms c.state session) (·.Excludes session)) ∧
    (∀ kind, (∃ given, Allots allowed kind given c) ∧
      ∀ given, Allots allowed kind given c → c.Orderly kind given) ∧
    (∀ terms now store c₀, Coordinator.recover terms now store = .ok c₀ → ∀ kind (id : Id kind),
      id ∈ c₀.state.ids kind ↔ 0 < id.number ∧ id < c₀.state.next kind) ∧
    (∀ kind (id : Id kind) o, c.state.object? id = some o →
      c.Henceforth allowed fun c' => ∀ o', c'.state.object? id = some o' → o' = o) ∧
    (allowed ⊆ Fault.refusals → c.Henceforth allowed Serves) := by
  refine ⟨?_, ?_, ?_, ?_, ?_, ?_⟩
  · exact fun handle r opened => reached.retires_handle opened
  · exact fun session x stands => reached.retires_session stands
  · exact fun kind => ⟨reached.exists_allots kind, fun given allots => allots.orderly⟩
  · exact fun terms now store c₀ recovered kind id => dense_of_recover recovered id
  · intro kind id o found c' led o' found'
    have advances : State.Advances kind c.state c'.state := led.advances reached
    have before := advances.object id (reached.sound.lt_next found) o' found'
    exact Option.some.inj (before.symm.trans found)
  · exact fun sub c' led => ((led.reachable reached).mono sub).serves

/-- The first client closes its handle, and the second one's session is destroyed. The identifiers
that were given out to them are not heard of again. -/
theorem identifiers_never_return_contended :
    contended.state.handles.get? ⟨1⟩ = some ⟨⟨1⟩, ⟨2⟩, .none, .process "a"⟩ ∧
    ((contended.withFaults fun _ => none).perform 0 (.close ⟨1⟩ ⟨1⟩)).result = .ok .done ∧
    ((contended.withFaults fun _ => none).perform 0 (.close ⟨1⟩ ⟨1⟩)).coordinator.Henceforth ∅
      (·.Disowns ⟨1⟩) ∧
    ((contended.withFaults fun _ => none).perform 0 (.destroySession ⟨2⟩)).result = .ok .done ∧
    ((contended.withFaults fun _ => none).perform 0
      (.destroySession ⟨2⟩)).coordinator.Henceforth ∅ (·.Excludes ⟨2⟩) ∧
    ∃ given, Allots ∅ .handle given contended ∧ contended.Orderly .handle given := by
  have opened : contended.state.handles.get? ⟨1⟩ = some ⟨⟨1⟩, ⟨2⟩, .none, .process "a"⟩ := by
    decide +kernel
  have present : (contended.state.sessions.get? ⟨2⟩).isSome = true := by decide +kernel
  obtain ⟨x, stands⟩ := Option.isSome_iff_exists.mp present
  have closed : ((contended.withFaults fun _ => none).perform 0 (.close ⟨1⟩ ⟨1⟩)).result =
      .ok .done := by decide +kernel
  have destroyed : ((contended.withFaults fun _ => none).perform 0 (.destroySession ⟨2⟩)).result =
      .ok .done := by decide +kernel
  have reached : contended.Reachable ∅ := reachable_after _
  obtain ⟨handles, sessions, kinds, -⟩ := reached.identifiers_never_return
  obtain ⟨⟨given, allots⟩, orderly⟩ := kinds .handle
  refine ⟨opened, closed, ?_, destroyed, ?_, given, allots, orderly given allots⟩
  · exact (handles ⟨1⟩ _ opened).done _ 0 _ _ nofun (.inl rfl) closed
  · exact (sessions ⟨2⟩ x stands).done _ 0 _ _ nofun (.inl rfl) destroyed

end Coordinator

end Coordination
