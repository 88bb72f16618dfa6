import Coordination.Proofs.Lease.Table

/-!
# Leases over the whole life of a table

A table is new, then it is asked one thing after another, at times that need not increase. The record
of what it was asked and what it answered determines every deadline: of all the contacts of a session
the latest counts. A session is in the state that its deadline gives it at the last tick or contact,
and once it has expired it stays so until it is forgotten.
-/

namespace Coordination.SessionTable

/-! ## Runs of a table and their record -/

/-- What a table is asked to do. -/
inductive Action where
  | create (now : Instant)
  | touch (id : SessionId) (now : Instant)
  | renew (id : SessionId) (now : Instant)
  | tick (now : Instant)
  | expire (id : SessionId)
  | remove (id : SessionId)
  deriving DecidableEq

/-- What it answers when it does so. -/
inductive Reply where
  | created (id : SessionId) (deadline : Instant)
  | touched
  | renewed (deadline : Instant)
  | ticked (expired : List SessionId)
  | expired
  | removed
  deriving DecidableEq

/-- An action with its answer. -/
structure Entry where
  action : Action
  answer : Except Failure Reply

/-- A refusal leaves the table as it is. -/
def settle (t : SessionTable) : Except Failure (Reply × SessionTable) →
    Except Failure Reply × SessionTable
  | .error why => (.error why, t)
  | .ok (reply, t') => (.ok reply, t')

/-- What an action answers and leaves. -/
def perform (t : SessionTable) : Action → Except Failure Reply × SessionTable
  | .create now => let ((id, due), t') := t.create now; (.ok (.created id due), t')
  | .touch id now => t.settle ((.touched, ·) <$> t.touch id now)
  | .renew id now => t.settle ((fun (due, t') => (.renewed due, t')) <$> t.renew id now)
  | .tick now => let (expired, t') := t.tick now; (.ok (.ticked expired), t')
  | .expire id => t.settle ((.expired, ·) <$> t.expire id)
  | .remove id => (.ok .removed, t.remove id)

/-- What comes of a table that performs one action after another, with the record of it. -/
inductive Run (t : SessionTable) : List Entry → SessionTable → Prop
  | start : t.Run [] t
  | step {log : List Entry} {t' : SessionTable} (before : t.Run log t') (action : Action) :
      t.Run (log ++ [⟨action, (t'.perform action).1⟩]) (t'.perform action).2

/-- When an entry is a contact of a session: it is created, or its contact is accepted. -/
def Entry.contact? (id : SessionId) : Entry → Option Instant
  | ⟨.create now, .ok (.created id' _)⟩ => if id' = id then some now else none
  | ⟨.touch id' now, .ok _⟩ => if id' = id then some now else none
  | ⟨.renew id' now, .ok _⟩ => if id' = id then some now else none
  | _ => none

/-- The times of all contacts of a session. -/
def contacts (id : SessionId) (log : List Entry) : List Instant := log.filterMap (·.contact? id)

/-- The sessions that an entry reports as expired. -/
def Entry.expired : Entry → List SessionId
  | ⟨_, .ok (.ticked expired)⟩ => expired
  | _ => []

/-- All reports of sessions that expired. -/
def reported (log : List Entry) : List SessionId := log.flatMap Entry.expired

/-! ## One step -/

/-- What a table does when it is asked: it refuses, or the request is in order. -/
inductive Step (t : SessionTable) : Entry → SessionTable → Prop
  | refused (action : Action) (why : Failure) : t.Step ⟨action, .error why⟩ t
  | created (now : Instant) : t.Step ⟨.create now, .ok (.created t.next (t.create now).1.2)⟩
      (t.create now).2
  | touched {id : SessionId} {x : Session} (now : Instant) (found : t.get? id = some x)
      (live : x.isLive = true) :
      t.Step ⟨.touch id now, .ok .touched⟩ (t.modify id (·.contact (t.millis now)))
  | renewed {id : SessionId} {x : Session} (now : Instant) (found : t.get? id = some x)
      (live : x.isLive = true) (due : Instant) :
      t.Step ⟨.renew id now, .ok (.renewed due)⟩ (t.modify id (·.contact (t.millis now)))
  | ticked (now : Instant) : t.Step ⟨.tick now, .ok (.ticked (t.tick now).1)⟩ (t.tick now).2
  | expired {id : SessionId} {x : Session} (found : t.get? id = some x) (live : x.isLive = true) :
      t.Step ⟨.expire id, .ok .expired⟩ (t.modify id ({ · with state := .expired }))
  | removed (id : SessionId) : t.Step ⟨.remove id, .ok .removed⟩ (t.remove id)

variable {t t' : SessionTable} {id : SessionId} {x x' : Session} {now due : Instant}
variable {log more : List Entry} {e : Entry} {terms : LeaseTerms} {epoch : Instant}

/-- Every action is a step. -/
lemma step_perform (action : Action) : t.Step ⟨action, (t.perform action).1⟩ (t.perform action).2 := by
  cases action with
  | create now => exact .created now
  | touch id now =>
    rw [perform]
    cases touched : t.touch id now with
    | error why => exact .refused _ why
    | ok t' =>
      obtain ⟨⟨x, found, live⟩, rfl⟩ := touch_eq_ok.mp touched
      exact .touched now found live
  | renew id now =>
    rw [perform]
    cases renewed : t.renew id now with
    | error why => exact .refused _ why
    | ok answer =>
      obtain ⟨⟨x, found, live⟩, eq⟩ := touch_eq_ok.mp (renew_eq_ok.mp renewed).1
      obtain ⟨due, t'⟩ := answer
      subst eq
      exact .renewed now found live due
  | tick now => exact .ticked now
  | expire id =>
    rw [perform]
    cases expired : t.expire id with
    | error why => exact .refused _ why
    | ok t' =>
      obtain ⟨⟨x, found, live⟩, rfl⟩ := expire_eq_ok.mp expired
      exact .expired found live
  | remove id => exact .removed id

/-- The epoch and the terms of a table are fixed. -/
lemma Step.frame (step : t.Step e t') : t'.epoch = t.epoch ∧ t'.terms = t.terms := by
  cases step <;> exact ⟨rfl, rfl⟩

/-- Identifiers are given out in order. -/
lemma Step.lt_next (step : t.Step e t') (lt : id < t.next) : id < t'.next := by
  cases step with
  | created => exact StrictOrder.trans lt t.next.lt_next
  | _ => exact lt

/-- The latest contact a session has had, after one more contact or none. -/
def latest (t : SessionTable) (last : Nat) : Option Instant → Nat
  | none => last
  | some now => max last (t.millis now)

/-- The latest contact is never taken back. -/
lemma le_latest (last : Nat) (o : Option Instant) : last ≤ t.latest last o := by
  cases o with
  | none => exact le_rfl
  | some now => exact le_max_left ..

/-- Contact counts for the session it comes from, and it comes from a live one. -/
lemma contact_eq_some {id₁ : SessionId} {x₁ : Session} (found₁ : t.get? id₁ = some x₁)
    (live : x₁.isLive = true)
    (found : (t.modify id₁ (·.contact (t.millis now))).get? id = some x') :
    ∃ x, t.get? id = some x ∧ (x.isLive = false → x' = x) ∧
      x'.lastContact = t.latest x.lastContact (if id₁ = id then some now else none) := by
  rw [get?_modify, ite_map_eq_some] at found
  obtain ⟨x, old, rfl⟩ := found
  by_cases eq : id = id₁
  · subst eq
    cases found₁.symm.trans old
    rw [if_pos rfl, if_pos rfl]
    exact ⟨x₁, old, fun dead => absurd (dead.symm.trans live) Bool.false_ne_true, rfl⟩
  · rw [if_neg eq, if_neg (Ne.symm eq)]
    exact ⟨x, old, fun _ => rfl, rfl⟩

/-- A session is new, or it was there before: then the entry counts if it is a contact of this
session, and nothing happens to a session that had expired. -/
lemma Step.get?_eq_some (step : t.Step e t') (found : t'.get? id = some x') :
    (id = t.next ∧ ∃ now, e.contact? id = some now ∧ x'.lastContact = t.millis now) ∨
      ∃ x, t.get? id = some x ∧ (x.isLive = false → x' = x) ∧
        x'.lastContact = t.latest x.lastContact (e.contact? id) := by
  cases step with
  | refused action why =>
    have silent : Entry.contact? id ⟨action, .error why⟩ = none := by
      cases action <;> rfl
    rw [silent]
    exact .inr ⟨x', found, fun _ => rfl, rfl⟩
  | created now =>
    rw [get?_create] at found
    rw [Entry.contact?]
    split at found
    · rename_i new
      cases found
      rw [if_pos new.symm]
      exact .inl ⟨new, now, rfl, rfl⟩
    · rename_i other
      rw [if_neg (Ne.symm other)]
      exact .inr ⟨x', found, fun _ => rfl, rfl⟩
  | @touched id₁ x₁ now found₁ live => exact .inr (contact_eq_some found₁ live found)
  | @renewed id₁ x₁ now found₁ live due => exact .inr (contact_eq_some found₁ live found)
  | ticked now =>
    rw [get?_tick] at found
    obtain ⟨x, old, rfl⟩ := Option.map_eq_some_iff.mp found
    refine .inr ⟨x, old, fun dead => if_neg (dead ▸ Bool.false_ne_true), ?_⟩
    split <;> rfl
  | @expired id₁ x₁ found₁ live =>
    rw [get?_modify, ite_map_eq_some] at found
    obtain ⟨x, old, rfl⟩ := found
    refine .inr ⟨x, old, fun dead => if_neg ?_, ?_⟩
    · rintro rfl
      cases found₁.symm.trans old
      exact Bool.false_ne_true (dead.symm.trans live)
    · split <;> rfl
  | removed id₁ =>
    rw [get?_remove] at found
    split at found
    · cases found
    · exact .inr ⟨x', found, fun _ => rfl, rfl⟩

/-- Only sessions that were there before, and the new one, have contact. -/
lemma Step.lt_of_contact (step : t.Step e t') (fresh : ∀ id x, t.get? id = some x → id < t.next)
    (contact : e.contact? id = some now) : id < t'.next := by
  cases step with
  | created =>
    obtain ⟨rfl, -⟩ := Option.ite_some_none_eq_some.mp contact
    exact t.next.lt_next
  | touched _ found =>
    obtain ⟨rfl, -⟩ := Option.ite_some_none_eq_some.mp contact
    exact fresh _ _ found
  | renewed _ found =>
    obtain ⟨rfl, -⟩ := Option.ite_some_none_eq_some.mp contact
    exact fresh _ _ found
  | refused action => cases action <;> cases contact
  | ticked => cases contact
  | expired => cases contact
  | removed => cases contact

/-- A session that is reported was live and has now expired. -/
lemma Step.expires (step : t.Step e t') (mem : id ∈ e.expired) :
    (∃ x, t.get? id = some x ∧ x.isLive = true) ∧
      ∀ x', t'.get? id = some x' → x'.isLive = false := by
  cases step with
  | ticked now =>
    obtain ⟨x, found, live, late⟩ := mem_tick.mp mem
    refine ⟨⟨x, found, live⟩, fun x' found' => ?_⟩
    rw [get?_tick, found, Option.map_some, if_pos live] at found'
    cases found'
    exact decide_eq_false (not_not.mpr late)
  | _ => cases mem

/-- No session is reported twice at once. -/
lemma Step.nodup_expired (step : t.Step e t') : e.expired.Nodup := by
  cases step with
  | ticked now => exact t.nodup_tick now
  | _ => exact List.nodup_nil

/-! ## The record of a run -/

/-- How a table agrees with the record of its run. -/
structure Accounted (terms : LeaseTerms) (epoch : Instant) (log : List Entry) (t : SessionTable) :
    Prop where
  same_terms : t.terms = terms
  same_epoch : t.epoch = epoch
  fresh : ∀ id x, t.get? id = some x → id < t.next
  unseen : ∀ id, ¬ id < t.next → contacts id log = []
  contact : ∀ id x, t.get? id = some x →
    ((contacts id log).map (millisBetween epoch)).max? = some x.lastContact
  known : ∀ id ∈ reported log, id < t.next
  ended : ∀ id ∈ reported log, ∀ x, t.get? id = some x → x.isLive = false
  once : (reported log).Nodup

/-- A new table agrees with the empty record. -/
lemma accounted_new : (new terms epoch).Accounted terms epoch [] where
  same_terms := rfl
  same_epoch := rfl
  fresh := nofun
  unseen _ _ := rfl
  contact := nofun
  known := nofun
  ended := nofun
  once := List.nodup_nil

/-- The contacts after one more entry. -/
lemma contacts_snoc : contacts id (log ++ [e]) = contacts id log ++ (e.contact? id).toList := by
  rw [contacts, List.filterMap_append]
  cases contact : e.contact? id <;> simp [contacts, contact]

/-- The reports after one more entry. -/
lemma reported_snoc : reported (log ++ [e]) = reported log ++ e.expired := by
  simp [reported]

/-- The greatest element after one more. -/
lemma max?_snoc {l : List Nat} {last : Nat} (greatest : l.max? = some last) (next : Nat) :
    (l ++ [next]).max? = some (max last next) := by
  obtain ⟨mem, above⟩ := List.max?_eq_some_iff.mp greatest
  rw [List.max?_eq_some_iff]
  constructor
  · rcases max_choice last next with eq | eq
    · rw [eq]
      exact List.mem_append_left _ mem
    · rw [eq]
      exact List.mem_append_right _ (List.mem_singleton_self _)
  · intro b mem'
    rcases List.mem_append.mp mem' with mem' | mem'
    · exact (above b mem').trans (le_max_left ..)
    · exact (List.mem_singleton.mp mem').le.trans (le_max_right ..)

/-- The latest contact is recorded, whether or not this entry is one. -/
lemma Accounted.contact_step (acc : t.Accounted terms epoch log) (step : t.Step e t')
    (found : t'.get? id = some x') :
    ((contacts id (log ++ [e])).map (millisBetween epoch)).max? = some x'.lastContact := by
  have millis : t.millis = millisBetween epoch := congrArg millisBetween acc.same_epoch
  rw [contacts_snoc, List.map_append]
  rcases step.get?_eq_some found with ⟨rfl, now, contact, eq⟩ | ⟨x, old, -, eq⟩
  · rw [acc.unseen t.next (StrictOrder.irrefl _), contact, eq, millis]
    rfl
  · rw [eq]
    cases e.contact? id with
    | none =>
      rw [Option.toList_none, List.map_nil, List.append_nil]
      exact acc.contact id x old
    | some now =>
      rw [latest, millis]
      exact max?_snoc (acc.contact id x old) (millisBetween epoch now)

/-- A step and its entry keep table and record in agreement. -/
lemma Accounted.step (acc : t.Accounted terms epoch log) (step : t.Step e t') :
    t'.Accounted terms epoch (log ++ [e]) where
  same_terms := step.frame.2.trans acc.same_terms
  same_epoch := step.frame.1.trans acc.same_epoch
  fresh id x' found := by
    rcases step.get?_eq_some found with ⟨rfl, now, contact, -⟩ | ⟨x, old, -⟩
    · exact step.lt_of_contact acc.fresh contact
    · exact step.lt_next (acc.fresh id x old)
  unseen id fresh := by
    rw [contacts_snoc, acc.unseen id (fun lt => fresh (step.lt_next lt))]
    cases contact : e.contact? id with
    | none => rfl
    | some now => exact absurd (step.lt_of_contact acc.fresh contact) fresh
  contact _ _ found := acc.contact_step step found
  known id mem := by
    rw [reported_snoc] at mem
    rcases List.mem_append.mp mem with mem | mem
    · exact step.lt_next (acc.known id mem)
    · obtain ⟨⟨x, found, -⟩, -⟩ := step.expires mem
      exact step.lt_next (acc.fresh id x found)
  ended id mem x' found := by
    rw [reported_snoc] at mem
    rcases List.mem_append.mp mem with mem | mem
    · rcases step.get?_eq_some found with ⟨rfl, -⟩ | ⟨x, old, still, -⟩
      · exact absurd (acc.known _ mem) (StrictOrder.irrefl _)
      · have dead := acc.ended id mem x old
        rw [still dead]
        exact dead
    · exact (step.expires mem).2 x' found
  once := by
    rw [reported_snoc]
    refine List.nodup_append'.mpr ⟨acc.once, step.nodup_expired, fun id before mem => ?_⟩
    obtain ⟨⟨x, found, live⟩, -⟩ := step.expires mem
    exact Bool.false_ne_true ((acc.ended id before x found).symm.trans live)

/-- After a run the table agrees with the record. -/
lemma Run.accounted (run : (new terms epoch).Run log t) : t.Accounted terms epoch log := by
  induction run with
  | start => exact accounted_new
  | step before action ih => exact ih.step (step_perform action)

/-- A run keeps the epoch and the terms, and identifiers that are taken stay taken. -/
lemma Run.frame (run : t.Run more t') :
    t'.epoch = t.epoch ∧ t'.terms = t.terms ∧ ∀ id, id < t.next → id < t'.next := by
  induction run with
  | start => exact ⟨rfl, rfl, fun _ lt => lt⟩
  | @step log t₁ before action ih =>
    obtain ⟨epoch, terms, taken⟩ := ih
    have step : t₁.Step ⟨action, _⟩ _ := step_perform action
    exact ⟨step.frame.1.trans epoch, step.frame.2.trans terms,
      fun id lt => step.lt_next (taken id lt)⟩

/-- Whoever is there after a while was there before. Its latest contact is not earlier, and it is
unchanged if it had expired. -/
lemma Run.get?_eq_some (run : t.Run more t') (old : id < t.next) (found : t'.get? id = some x') :
    ∃ x, t.get? id = some x ∧ (x.isLive = false → x' = x) ∧ x.lastContact ≤ x'.lastContact := by
  induction run generalizing x' with
  | start => exact ⟨x', found, fun _ => rfl, le_rfl⟩
  | step before action ih =>
    rcases (step_perform action).get?_eq_some found with ⟨rfl, -⟩ | ⟨x₁, found₁, still, eq⟩
    · exact absurd (before.frame.2.2 _ old) (StrictOrder.irrefl _)
    · obtain ⟨x, found, still₁, le⟩ := ih found₁
      refine ⟨x, found, fun dead => ?_, le.trans (eq ▸ le_latest ..)⟩
      have eq₁ := still₁ dead
      exact (still (eq₁ ▸ dead)).trans eq₁

/-! ## Leases -/

/-- What the record of a table says about its leases. -/
structure Leased (terms : LeaseTerms) (epoch : Instant) (log : List Entry) (t : SessionTable) :
    Prop where
  /-- The lease of a session counts from its latest contact, in whole milliseconds. -/
  deadline : ∀ id x, t.get? id = some x → x.state ≠ .expired → ∃ last,
    ((contacts id log).map (millisBetween epoch)).max? = some last ∧
      t.deadline id = .ok (epoch + milliseconds last + milliseconds terms.interval)
  /-- Whatever is asked later on, and at whatever times, the deadline does not move backwards. -/
  forward : ∀ id due more t' due', t.deadline id = .ok due → t.Run more t' →
    t'.deadline id = .ok due' → due ≤ due'
  /-- A tick moves a session that has not expired to the state its deadline gives it. -/
  moves : ∀ id due now, t.deadline id = .ok due →
    ((t.tick now).2.state? id = some .connected ↔ now < due) ∧
      ((t.tick now).2.state? id = some .jeopardy ↔
        due ≤ now ∧ now < due + milliseconds terms.grace) ∧
      ((t.tick now).2.state? id = some .expired ↔ due + milliseconds terms.grace ≤ now)
  /-- A tick reports the sessions it has just expired, in ascending order. -/
  reports : ∀ now, (t.tick now).1.Pairwise (· < ·) ∧ ∀ id, id ∈ (t.tick now).1 ↔
    (∃ due, t.deadline id = .ok due) ∧ (t.tick now).2.state? id = some .expired
  /-- No session is reported twice. -/
  once : (reported log).Nodup
  /-- Contact that is accepted leaves the session connected. -/
  touched : ∀ id now t', t.touch id now = .ok t' → t'.state? id = some .connected
  renewed : ∀ id now due t', t.renew id now = .ok (due, t') →
    t'.state? id = some .connected ∧ t'.deadline id = .ok due
  /-- A session that has expired is refused everything and stays as it is until it is removed. -/
  absorbed : ∀ id, t.state? id = some .expired →
    (∀ now, t.perform (.touch id now) = (.error (.noSuchSession id), t)) ∧
      (∀ now, t.perform (.renew id now) = (.error (.noSuchSession id), t)) ∧
      t.perform (.expire id) = (.error (.noSuchSession id), t) ∧
      t.deadline id = .error (.noSuchSession id) ∧
      ∀ more t', t.Run more t' → t'.get? id = t.get? id ∨ t'.get? id = none

/-- The state of a session after its deadline was looked at. -/
lemma state?_tick (asked : t.deadline id = .ok due) (now : Instant) :
    (t.tick now).2.state? id = some (if now < due then .connected
      else if now < due + milliseconds t.terms.grace then .jeopardy else .expired) := by
  obtain ⟨x, found, live, rfl⟩ := deadline_eq_ok.mp asked
  rw [state?, get?_tick, found, Option.map_some, if_pos live]
  rfl

/-- Which of the three states a session is in after its deadline was looked at. -/
lemma moves_tick {due : Int} (asked : t.deadline id = .ok due) (now : Int) :
    ((t.tick now).2.state? id = some .connected ↔ now < due) ∧
      ((t.tick now).2.state? id = some .jeopardy ↔
        due ≤ now ∧ now < due + milliseconds t.terms.grace) ∧
      ((t.tick now).2.state? id = some .expired ↔ due + milliseconds t.terms.grace ≤ now) := by
  have grace : 0 ≤ milliseconds t.terms.grace := by
    rw [milliseconds]
    omega
  rw [state?_tick asked]
  by_cases early : now < due
  · simp only [if_pos early, Option.some.injEq, reduceCtorEq, true_iff, false_iff]
    omega
  · by_cases graced : now < due + milliseconds t.terms.grace
    · simp only [if_neg early, if_pos graced, Option.some.injEq, reduceCtorEq, true_iff, false_iff]
      omega
    · simp only [if_neg early, if_neg graced, Option.some.injEq, reduceCtorEq, true_iff, false_iff]
      omega

/-- A session is reported when it has a deadline and is expired now. -/
lemma reports_tick (now : Instant) : id ∈ (t.tick now).1 ↔
    (∃ due, t.deadline id = .ok due) ∧ (t.tick now).2.state? id = some .expired := by
  rw [mem_tick]
  constructor
  · rintro ⟨x, found, live, late⟩
    refine ⟨⟨_, deadline_eq_ok.mpr ⟨x, found, live, rfl⟩⟩, ?_⟩
    rw [state?, get?_tick, found, Option.map_some, if_pos live]
    exact congrArg some late
  · rintro ⟨⟨due, asked⟩, expired⟩
    obtain ⟨x, found, live, -⟩ := deadline_eq_ok.mp asked
    rw [state?, get?_tick, found, Option.map_some, if_pos live] at expired
    exact ⟨x, found, live, Option.some.inj expired⟩

/-- A later contact does not bring the deadline forward. -/
lemma deadlineOf_le (epoch : t'.epoch = t.epoch) (terms : t'.terms = t.terms)
    (le : x.lastContact ≤ x'.lastContact) : t.deadlineOf x ≤ t'.deadlineOf x' := by
  simp only [deadlineOf, epoch, terms, milliseconds]
  show (_ : Int) ≤ _
  omega

/-- A session that was contacted is connected. -/
lemma state?_touch (touched : t.touch id now = .ok t') : t'.state? id = some .connected := by
  obtain ⟨⟨x, found, live⟩, rfl⟩ := touch_eq_ok.mp touched
  rw [state?, get?_modify, if_pos rfl, found]
  exact congrArg some (Session.state_contact live _)

/-- Nobody hears a session that has expired. -/
lemma live_of_expired (expired : t.state? id = some .expired) :
    t.live id = .error (.noSuchSession id) := by
  obtain ⟨x, found, state⟩ := Option.map_eq_some_iff.mp expired
  refine live_of_not fun x' found' => ?_
  cases found.symm.trans found'
  exact decide_eq_false (not_not.mpr state)

/-- However a table has come about, its leases are those its record speaks of. -/
theorem Run.leased (run : (new terms epoch).Run log t) : t.Leased terms epoch log where
  deadline id x found alive := by
    have acc := run.accounted
    refine ⟨x.lastContact, acc.contact id x found, deadline_eq_ok.mpr ⟨x, found, ?_, ?_⟩⟩
    · exact Session.isLive_iff.mpr alive
    · rw [deadlineOf, acc.same_epoch, acc.same_terms]
  forward id due more t' due' asked later asked' := by
    obtain ⟨x, found, -, rfl⟩ := deadline_eq_ok.mp asked
    obtain ⟨x', found', -, rfl⟩ := deadline_eq_ok.mp asked'
    obtain ⟨epoch, terms, -⟩ := later.frame
    obtain ⟨x₁, found₁, -, le⟩ := later.get?_eq_some (run.accounted.fresh id x found) found'
    cases found.symm.trans found₁
    exact deadlineOf_le epoch terms le
  moves id due now asked := run.accounted.same_terms ▸ moves_tick asked now
  reports now := ⟨t.ascending_tick now, fun _ => reports_tick now⟩
  once := run.accounted.once
  touched _ _ _ touched := state?_touch touched
  renewed _ _ _ _ renewed := by
    obtain ⟨touched, asked⟩ := renew_eq_ok.mp renewed
    exact ⟨state?_touch touched, asked⟩
  absorbed id expired := by
    have refused := live_of_expired expired
    refine ⟨fun now => ?_, fun now => ?_, ?_, ?_, fun more t' later => ?_⟩
    · rw [perform, touch, refused]
      rfl
    · rw [perform, renew, touch, refused]
      rfl
    · rw [perform, SessionTable.expire, refused]
      rfl
    · rw [SessionTable.deadline, refused]
      rfl
    · obtain ⟨x, found, state⟩ := Option.map_eq_some_iff.mp expired
      cases found' : t'.get? id with
      | none => exact .inr rfl
      | some x' =>
        obtain ⟨x₁, found₁, still, -⟩ :=
          later.get?_eq_some (run.accounted.fresh id x found) found'
        cases found.symm.trans found₁
        rw [found, still (decide_eq_false (not_not.mpr state))]
        exact .inl rfl

/-- One session has expired and was reported, another is in its period of grace. -/
theorem leased_lapsed : ∃ log t, (new .standard 0).Run log t ∧ t.Leased .standard 0 log ∧
    t.state? ⟨1⟩ = some .expired ∧ t.state? ⟨2⟩ = some .jeopardy ∧ reported log = [⟨1⟩] := by
  have run := (((((Run.start (t := new .standard 0)).step (.create 0)).step (.create 1500)).step
    (.touch ⟨2⟩ 30000999)).step (.touch ⟨2⟩ 5)).step (.tick 42000000)
  exact ⟨_, _, run, run.leased, rfl, rfl, rfl⟩

end Coordination.SessionTable
