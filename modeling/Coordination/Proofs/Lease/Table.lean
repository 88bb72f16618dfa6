import Coordination.Lease
import Coordination.Proofs.Failure
import Coordination.Proofs.Maps

/-!
# The laws of the session table

Look-ups after each operation, when contact is accepted, and which sessions a tick expires. Contact
with a session that has expired, or with none, is refused and says whose it was.
-/

namespace Coordination

namespace Session

/-- A session is live unless it has expired. -/
lemma isLive_iff {x : Session} : x.isLive = true ↔ x.state ≠ .expired := decide_eq_true_iff

/-- Contact with a live session leaves it connected. -/
lemma state_contact {x : Session} (live : x.isLive = true) (millis : Nat) :
    (x.contact millis).state = .connected := by
  have alive := isLive_iff.mp live
  cases state : x.state with
  | connected => simp [contact, reconnect, state]
  | jeopardy => simp [contact, reconnect, state]
  | expired => exact absurd state alive

end Session

namespace SessionTable

variable {t t' : SessionTable} {id : SessionId} {x : Session} {now : Instant}

/-! ## Look-ups -/

/-- The sessions after one was changed. -/
@[grind =] lemma get?_modify (f : Session → Session) (id' : SessionId) :
    (t.modify id f).get? id' = if id' = id then (t.get? id').map f else t.get? id' :=
  FinMap.get?_modify ..

/-- The sessions after one was removed. -/
@[grind =] lemma get?_remove (id' : SessionId) :
    (t.remove id).get? id' = if id' = id then none else t.get? id' :=
  FinMap.get?_erase ..

/-- The sessions after one was created. -/
lemma get?_create (id' : SessionId) : (t.create now).2.get? id' =
    if id' = t.next then some ⟨.empty, .empty, .connected, t.millis now⟩ else t.get? id' :=
  FinMap.get?_insert ..

/-- A tick moves every live session to its state at the time. -/
lemma get?_tick (id' : SessionId) : (t.tick now).2.get? id' = (t.get? id').map fun x =>
    if x.isLive then { x with state := t.stateAt x now } else x :=
  FinMap.get?_mapValues _

/-! ## Contact -/

/-- A session is found alive if it is there and has not expired. -/
lemma live_eq_ok : t.live id = .ok x ↔ t.get? id = some x ∧ x.isLive = true := by
  rw [live]
  cases found : t.get? id with
  | none => simp
  | some y =>
    cases live : y.isLive with
    | false =>
      simp only [Option.filter_some, live, Option.some.injEq, Bool.false_eq_true, if_false]
      refine ⟨nofun, ?_⟩
      rintro ⟨rfl, alive⟩
      rw [live] at alive
      cases alive
    | true =>
      simp only [Option.filter_some, live, if_true, Except.ok.injEq, Option.some.injEq]
      exact ⟨fun eq => ⟨eq, eq ▸ live⟩, And.left⟩

/-- Whoever is not live is refused. -/
lemma live_of_not (none : ∀ x, t.get? id = some x → x.isLive = false) :
    t.live id = .error (.noSuchSession id) := by
  rw [live]
  cases found : t.get? id with
  | none => rfl
  | some x =>
    rw [Option.filter_some, none x found]
    rfl

/-- A session that is not alive is reported as missing. -/
lemma eq_of_live_error {why : Failure} (failed : t.live id = .error why) :
    why = .noSuchSession id := by
  unfold live at failed
  split at failed
  · exact (Except.error.inj failed).symm
  · cases failed

/-- That a session is missing is no sign of corruption. -/
lemma live_error {why : Failure} (failed : t.live id = .error why) : ¬ why.IsFatal := by
  obtain rfl := eq_of_live_error failed
  rintro ⟨detail, eq⟩
  cases eq

/-- Contact is accepted from live sessions. -/
lemma touch_eq_ok : t.touch id now = .ok t' ↔
    (∃ x, t.get? id = some x ∧ x.isLive = true) ∧ t' = t.modify id (·.contact (t.millis now)) := by
  rw [touch, bind_eq_ok]
  constructor
  · rintro ⟨x, live, eq⟩
    exact ⟨⟨x, live_eq_ok.mp live⟩, (Except.ok.inj eq).symm⟩
  · rintro ⟨⟨x, live⟩, rfl⟩
    exact ⟨x, live_eq_ok.mpr live, rfl⟩

/-- A renewal is a contact, answered with the deadline that follows from it. -/
lemma renew_eq_ok {due : Instant} :
    t.renew id now = .ok (due, t') ↔ t.touch id now = .ok t' ∧ t'.deadline id = .ok due := by
  rw [renew, bind_eq_ok]
  constructor
  · rintro ⟨t₁, touched, answered⟩
    obtain ⟨due₁, asked, eq⟩ := bind_eq_ok.mp answered
    cases eq
    exact ⟨touched, asked⟩
  · rintro ⟨touched, asked⟩
    exact ⟨t', touched, bind_eq_ok.mpr ⟨due, asked, rfl⟩⟩

/-- A live session has the deadline its last contact gives it. -/
lemma deadline_eq_ok {due : Instant} : t.deadline id = .ok due ↔
    ∃ x, t.get? id = some x ∧ x.isLive = true ∧ t.deadlineOf x = due := by
  rw [deadline]
  constructor
  · intro asked
    cases live : t.live id with
    | error why =>
      rw [live] at asked
      cases asked
    | ok x =>
      rw [live] at asked
      obtain ⟨found, alive⟩ := live_eq_ok.mp live
      exact ⟨x, found, alive, Except.ok.inj asked⟩
  · rintro ⟨x, found, alive, rfl⟩
    rw [live_eq_ok.mpr ⟨found, alive⟩]
    rfl

/-- A live session is marked as expired. -/
lemma expire_eq_ok : t.expire id = .ok t' ↔
    (∃ x, t.get? id = some x ∧ x.isLive = true) ∧
      t' = t.modify id ({ · with state := .expired }) := by
  rw [expire, bind_eq_ok]
  constructor
  · rintro ⟨x, live, eq⟩
    exact ⟨⟨x, live_eq_ok.mp live⟩, (Except.ok.inj eq).symm⟩
  · rintro ⟨⟨x, live⟩, rfl⟩
    exact ⟨x, live_eq_ok.mpr live, rfl⟩

/-! ## Sessions that expire -/

/-- A tick reports the live sessions whose state at the time is that they have expired. -/
lemma mem_tick : id ∈ (t.tick now).1 ↔
    ∃ x, t.get? id = some x ∧ x.isLive = true ∧ t.stateAt x now = .expired := by
  constructor
  · intro mem
    obtain ⟨⟨id, x⟩, due, rfl⟩ := List.mem_map.mp mem
    obtain ⟨bound, late⟩ := List.mem_filter.mp due
    obtain ⟨live, state⟩ := Bool.and_eq_true_iff.mp late
    exact ⟨x, FinMap.get?_eq_some.mpr bound, live, of_decide_eq_true state⟩
  · rintro ⟨x, found, live, state⟩
    refine List.mem_map.mpr ⟨(id, x), List.mem_filter.mpr ⟨FinMap.get?_eq_some.mp found, ?_⟩, rfl⟩
    exact Bool.and_eq_true_iff.mpr ⟨live, decide_eq_true state⟩

/-- It reports them in ascending order. -/
lemma ascending_tick (t : SessionTable) (now : Instant) : (t.tick now).1.Pairwise (· < ·) :=
  (t.sessions.ascending.filter _).map _ fun _ _ lt => lt

/-- No session is reported twice when the deadlines are looked at. -/
lemma nodup_tick (t : SessionTable) (now : Instant) : (t.tick now).1.Nodup := by
  refine (t.ascending_tick now).imp fun {a b} lt => ?_
  rintro rfl
  exact StrictOrder.irrefl a lt

end SessionTable

end Coordination
