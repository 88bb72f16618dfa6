import Coordination.Proofs.Delivery.Ledger

/-!
# A flush is a barrier

A flush is to be resolved only when every event that was enqueued before it has been delivered or
dropped. It is, unless a flush that was called after the handle was retired is still pending: the
first such flush takes the barriers of retired lanes with it, and later ones no longer wait for them
(`flush_overtaken`). For all other handles, and for all handles once the earlier flushes are
resolved, a flush is a barrier (`flush_is_barrier`).
-/

namespace Coordination

namespace Delivery

variable {d d' d₀ : Delivery} {handle : HandleId} {done : List Notification}
variable {taken : List RouterItem} {stamp : BarrierId → Nat}
variable {actions before later : List Action} {a : Action} {g : FlushId}

/-! ## Runs -/

/-- After a history, the ledger of a handle accounts for all that was handed to the router. -/
def Follows (d : Delivery) (handle : HandleId) (actions : List Action) (done : List Notification) :
    Prop :=
  ∃ taken stamp, d.Ledger handle taken done stamp ∧ taken ++ d.inbox = items 0 actions ∧
    d.nextFlush = actions.count .flush

/-- What one more call hands over. -/
lemma items_snoc : items 0 (actions ++ [a]) =
    items 0 actions ++ (item? (actions.count .flush) a).toList := by
  rw [items_append, items, items, List.append_nil, Nat.zero_add]

/-- What is handed to a router that runs is queued. -/
lemma Follows.call (follows : d.Follows handle actions done)
    (same : d' = { d with inbox := d'.inbox, nextFlush := d'.nextFlush })
    (handed : d'.inbox = d.inbox ++ (item? d.nextFlush a).toList)
    (counted' : d'.nextFlush = d.nextFlush + [a].count .flush) :
    d'.Follows handle (actions ++ [a]) done := by
  obtain ⟨taken, stamp, led, queued, counted⟩ := follows
  refine ⟨taken, stamp, led.alike (by rw [same]), ?_, ?_⟩
  · rw [handed, ← List.append_assoc, queued, items_snoc, counted]
  · rw [counted', counted, List.count_append]

/-- A lane moves, or a flush is resolved. -/
lemma Follows.inside {done' : List Notification}
    (follows : d.Follows handle actions done) (silent : ∀ n, item? n a = none) (other : a ≠ .flush)
    (move : ∀ taken stamp, d.Ledger handle taken done stamp →
      d'.Ledger handle taken done' stamp ∧ d.SameCalls d') :
    d'.Follows handle (actions ++ [a]) done' := by
  obtain ⟨taken, stamp, led, queued, counted⟩ := follows
  obtain ⟨led', inbox, nextFlush⟩ := move taken stamp led
  refine ⟨taken, stamp, led', ?_, ?_⟩
  · rw [inbox, queued, items_snoc, silent]
    exact (List.append_nil _).symm
  · rw [nextFlush, counted, List.count_append, List.count_singleton]
    simp [other]

/-- The router takes its next item. -/
lemma Follows.route (follows : d.Follows handle actions done) (orderly : Orderly actions)
    (step : d.route? = some d') : d'.Follows handle (actions ++ [.route]) done := by
  obtain ⟨taken, stamp, led, queued, counted⟩ := follows
  rw [route?] at step
  split at step
  case h_1 item rest _ next =>
    rw [next] at queued
    obtain rfl := Option.some.inj step
    have led : { d with inbox := rest }.Ledger handle taken done stamp := led.alike rfl
    have arrival : ∀ e callback, item = .deliver e callback → .retire e.handle ∉ taken := by
      rintro e callback rfl
      exact orderly.not_retired queued.symm
    have numbered : ∀ f, item = .flush f → .flush f ∉ taken := by
      rintro f rfl
      exact flush_not_mem queued.symm
    obtain ⟨stamp', led', inbox, nextFlush⟩ := led.take arrival numbered
    refine ⟨taken ++ [item], stamp', led', ?_, ?_⟩
    · rw [inbox, items_snoc, ← queued, List.append_assoc]
      exact (List.append_nil _).symm
    · rw [nextFlush, List.count_append]
      exact counted
  case h_2 stopping => exact nomatch led.running.symm.trans stopping
  case h_3 => cases step

/-- Every step keeps the account. -/
lemma Follows.step (follows : d.Follows handle actions done) (orderly : Orderly actions)
    (step : d.step? a = some d') (serving : a ≠ .stop)
    (survived : ∀ e ∈ d.ending? handle a, e.2 ≠ .died) :
    d'.Follows handle (actions ++ [a]) (done ++ (d.ending? handle a).toList.map Prod.fst) := by
  have running : d.router ≠ .stopped := by
    obtain ⟨taken, stamp, led, -, -⟩ := follows
    rw [led.running]
    exact nofun
  by_cases finish : ∃ i ending, a = .finish i ending
  · obtain ⟨i, ending, rfl⟩ := finish
    exact follows.inside (fun _ => rfl) nofun fun taken stamp led => led.finish step survived
  · have none : d.ending? handle a = none := by
      cases a with
      | finish i ending => exact absurd ⟨i, ending, rfl⟩ finish
      | _ => rfl
    rw [none, Option.toList_none, List.map_nil, List.append_nil]
    cases a with
    | enqueue event callback =>
      obtain rfl := Option.some.inj step
      rw [enqueue, if_neg running]
      exact follows.call rfl rfl rfl
    | retire h =>
      obtain rfl := Option.some.inj step
      rw [retire, if_neg running]
      exact follows.call rfl rfl rfl
    | flush =>
      obtain rfl := Option.some.inj step
      rw [flush]
      dsimp only
      rw [if_neg running]
      exact follows.call rfl rfl rfl
    | stop => exact absurd rfl serving
    | route => exact follows.route orderly step
    | begin i => exact follows.inside (fun _ => rfl) nofun fun taken stamp led => led.begin step
    | finish i ending => exact absurd ⟨i, ending, rfl⟩ finish
    | pass i => exact follows.inside (fun _ => rfl) nofun fun taken stamp led => led.pass step
    | resolve f => exact follows.inside (fun _ => rfl) nofun fun taken stamp led => led.resolve step

/-- So does every run. -/
lemma follows_run (ran : new.run? actions = some d) (serving : .stop ∉ actions)
    (orderly : Orderly actions) (survived : ∀ e ∈ endings handle new actions, e.2 ≠ .died) :
    d.Follows handle actions ((endings handle new actions).map Prod.fst) := by
  revert serving orderly survived
  refine run_induction (P := fun actions d => .stop ∉ actions → Orderly actions →
    (∀ e ∈ endings handle Delivery.new actions, e.2 ≠ .died) →
    d.Follows handle actions ((endings handle Delivery.new actions).map Prod.fst)) ?_ ?_ ran
  · exact fun _ _ _ => ⟨[], _, .new, rfl, rfl⟩
  · intro actions d a d' reached step ih serving orderly survived
    have split : endings handle Delivery.new (actions ++ [a]) =
        endings handle Delivery.new actions ++ (d.ending? handle a).toList := by
      simp only [endings_eq_observed]
      exact observed_snoc _ reached step
    rw [split] at survived ⊢
    rw [List.map_append]
    refine (ih ?_ orderly.of_append ?_).step orderly.of_append step ?_ ?_
    · exact fun mem => serving (List.mem_append_left _ mem)
    · exact fun e mem => survived e (List.mem_append_left _ mem)
    · rintro rfl
      exact serving (List.mem_append_right _ (List.mem_singleton_self _))
    · exact fun e mem => survived e (List.mem_append_right _ (Option.mem_toList.mpr mem))

/-! ## The barrier -/

/-- The events of the handle that are done are those that came first. -/
lemma Ledger.done_prefix (led : d.Ledger handle taken done stamp) :
    done <+: events handle taken := by
  by_cases own : ∃ i, d.owner? i = some handle
  · obtain ⟨i, own⟩ := own
    obtain ⟨l, found, same⟩ := Option.map_eq_some_iff.mp own
    rw [(led.marks.lanes i l found).conserved same]
    exact List.prefix_append ..
  · rw [(led.unseen fun i eq => own ⟨i, eq⟩).2]
    exact List.nil_prefix

/-- A flush taken after a handle was retired was called after that. -/
lemma Since.called (since : Since handle (items 0 actions) g) : ∃ first between,
    actions = first ++ .retire handle :: between ∧ first.count .flush ≤ g ∧
      g < actions.count .flush := by
  obtain ⟨former, after, eq, mem⟩ := since
  obtain ⟨p, a, q, rfl, rfl, given⟩ := items_split eq
  obtain ⟨rfl, rfl⟩ := item?_eq_flush given
  obtain ⟨first, between, rfl⟩ := List.append_of_mem (retire_mem_items mem)
  refine ⟨first, between ++ .flush :: q, by simp, ?_, ?_⟩ <;> simp

/-- When a flush is resolved, the callback of a handle has returned for all events that were
enqueued before the flush was called, in the order they were enqueued: provided that it never died,
and that the flushes called after the handle was retired, and before this one, are resolved too. -/
theorem flush_is_barrier (handle : HandleId) (called : new.run? before = some d₀)
    (ran : d₀.run? (.flush :: later) = some d) (serving : .stop ∉ before ++ .flush :: later)
    (orderly : Orderly (before ++ .flush :: later)) (resolved : d₀.nextFlush ∈ d.resolved)
    (survived : ∀ e ∈ endings handle new (before ++ .flush :: later), e.2 ≠ .died)
    (alone : ∀ first between, before = first ++ .retire handle :: between →
      ∀ g, first.count .flush ≤ g → g < d₀.nextFlush → g ∈ d.resolved) :
    sent handle before <+: (endings handle new (before ++ .flush :: later)).map Prod.fst := by
  have whole : new.run? (before ++ .flush :: later) = some d := by
    rw [run?_append, called]
    exact ran
  have number : d₀.nextFlush = before.count .flush := by
    have served : .stop ∉ before := fun mem => serving (List.mem_append_left _ mem)
    have lived : ∀ e ∈ endings handle new before, e.2 ≠ .died := by
      rw [endings_append called] at survived
      exact fun e mem => survived e (List.mem_append_left _ mem)
    obtain ⟨-, -, -, -, counted⟩ := follows_run called served orderly.of_append lived
    exact counted
  obtain ⟨taken, stamp, led, queued, -⟩ := follows_run whole serving orderly survived
  have waits := led.waits
  obtain ⟨former, after, rfl⟩ := List.append_of_mem (waits.resolved _ resolved).1
  -- the router had then taken what was handed to it before the flush
  obtain rfl : former = items 0 before := by
    rw [number, ← Nat.zero_add (before.count _), List.append_assoc] at queued
    exact items_before_flush queued.symm
  have part : sent handle before <+:
      events handle (items 0 before ++ .flush d₀.nextFlush :: after) := by
    rw [events_append, events_items]
    exact List.prefix_append ..
  rcases waits.flushed _ _ _ rfl with enough | ⟨g, bs, waiting, kind, -⟩
  · rw [events_items] at enough
    exact List.prefix_of_prefix_length_le part led.done_prefix enough
  · -- no flush that took a barrier over is still waiting for it
    have settled : g ∈ d.resolved := by
      rcases kind with rfl | since
      · exact resolved
      · obtain ⟨first, between, eq, le, lt⟩ := since.called
        exact alone first between eq g le (number ▸ lt)
    exact nomatch (waits.resolved g settled).2.symm.trans waiting

/-- A handle is retired with an event in its lane, and a flush is called. -/
def farewell : List Action :=
  [.enqueue ⟨⟨7⟩, ⟨1⟩, .lockReleased⟩ (.process "slow"), .retire ⟨7⟩, .flush]

/-- What the router has been handed then. -/
def departed : Delivery :=
  ((new.enqueue ⟨⟨7⟩, ⟨1⟩, .lockReleased⟩ (.process "slow")).retire ⟨7⟩).flush

/-- The next flush is called at once, and the router takes it when the first one is resolved. -/
def inTurn : List Action :=
  [.route, .route, .begin 0, .route, .finish 0 .took, .pass 0, .resolve 0, .route, .resolve 1]

/-- The flush resolves once all events of the retired handle are done. -/
theorem flush_is_barrier_farewell :
    (endings ⟨7⟩ new (farewell ++ .flush :: inTurn)).map Prod.fst = sent ⟨7⟩ farewell ∧
    sent ⟨7⟩ farewell <+: (endings ⟨7⟩ new (farewell ++ .flush :: inTurn)).map Prod.fst := by
  refine ⟨by decide +kernel, ?_⟩
  have called : new.run? farewell = some departed := rfl
  have ends : (departed.run? (.flush :: inTurn)).any
      (fun d => 0 ∈ d.resolved ∧ 1 ∈ d.resolved) := by
    decide +kernel
  obtain ⟨d, ran, settled⟩ := (Option.any_eq_true _ _).mp ends
  obtain ⟨first, second⟩ := of_decide_eq_true settled
  refine flush_is_barrier ⟨7⟩ called ran (by decide) ?_ second (by decide +kernel) ?_
  · simp [Orderly, farewell, inTurn]
  · intro _ _ _ g _ less
    obtain rfl : g = 0 := Nat.lt_one_iff.mp less
    exact first

/-- The router takes the next flush while the first one is pending. -/
def overtaking : List Action := [.route, .route, .begin 0, .route, .route, .resolve 1]

/-- Then the next flush is resolved with the event still in its callback. -/
theorem flush_overtaken : ∃ d, new.run? farewell = some departed ∧
    departed.run? (.flush :: overtaking) = some d ∧ departed.nextFlush ∈ d.resolved ∧
    .stop ∉ farewell ++ .flush :: overtaking ∧ Orderly (farewell ++ .flush :: overtaking) ∧
    (∀ e ∈ endings ⟨7⟩ new (farewell ++ .flush :: overtaking), e.2 ≠ .died) ∧
    ¬ sent ⟨7⟩ farewell <+:
      (endings ⟨7⟩ new (farewell ++ .flush :: overtaking)).map Prod.fst := by
  have ends : (departed.run? (.flush :: overtaking)).any (fun d => 1 ∈ d.resolved) := by
    decide +kernel
  obtain ⟨d, ran, resolved⟩ := (Option.any_eq_true _ _).mp ends
  refine ⟨d, rfl, ran, of_decide_eq_true resolved, by decide, ?_, by decide +kernel,
    by decide +kernel⟩
  simp [Orderly, farewell, overtaking]

-- a callback that dies takes with it what is queued: a flush does not wait for that, and nothing
-- counts it
example : (new.run? [.enqueue ⟨⟨1⟩, ⟨1⟩, .attrSet "e1"⟩ (.process "panic"),
    .enqueue ⟨⟨1⟩, ⟨1⟩, .attrSet "e2"⟩ (.process "rec"), .flush, .route, .route, .route, .begin 0,
    .finish 0 .died, .resolve 0]).any
      (fun d => 0 ∈ d.resolved ∧ d.delivered = 0 ∧ d.dropped = 0) := by
  decide +kernel

end Delivery

end Coordination
