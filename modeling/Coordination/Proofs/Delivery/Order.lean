import Coordination.Proofs.Delivery.Lineup

/-!
# Events arrive in order, and each of them once

The callback of a handle is called with the events of the handle in the order in which they were
enqueued, whatever the router and the lanes do first, and whichever callbacks fail. When nothing is
left to do it has been called with all of them, and every event has been counted once, as delivered
or as dropped (`in_order_exactly_once`).

A callback that dies takes its lane along. What is queued for its handle then is neither delivered
nor counted, so the second half is about handles whose callback never dies.
-/

namespace Coordination

/-- A lane has nothing to do, or is dead. -/
def Lane.AtRest (l : Lane) : Prop := l.state = .dead ∨ l.state = .idle ∧ l.queue = []

/-- It can be decided whether a lane can move. -/
instance (l : Lane) : Decidable l.AtRest :=
  inferInstanceAs (Decidable (l.state = .dead ∨ l.state = .idle ∧ l.queue = []))

namespace Delivery

/-- The end of a callback. -/
structure Closing where
  handle : HandleId
  notification : Notification
  ending : Ending
  deriving DecidableEq

/-- The end of a callback, of whichever handle, if that is what happens. -/
def closed? (d : Delivery) : Action → Option Closing
  | .finish i ending => do
    let l ← d.lanes.get? i
    match l.state with
    | .busy n => some ⟨l.handle, n, ending⟩
    | _ => none
  | _ => none

/-- How callbacks end one after another. -/
def closings : Delivery → List Action → List Closing := observed closed?

/-- The events that are enqueued. -/
def enqueued (actions : List Action) : List Event :=
  actions.filterMap fun
    | .enqueue event _ => some event
    | _ => none

/-- The callback of a handle never dies. -/
def Survives (handle : HandleId) (actions : List Action) : Prop :=
  ∀ e ∈ endings handle new actions, e.2 ≠ .died

/-- Neither the router nor a lane can move. -/
def AtRest (d : Delivery) : Prop :=
  d.route? = none ∧
  ∀ i, d.begin? i = none ∧ d.pass? i = none ∧ ∀ ending, d.finish? i ending = none

variable {d d' : Delivery} {handle : HandleId} {taken : List RouterItem}
variable {called : List Notification} {ended : List (Notification × Ending)}
variable {closed : List Closing} {actions : List Action} {a : Action} {item : RouterItem}
variable {i : LaneId} {l : Lane} {ending : Ending}

/-! ## Rest -/

/-- A router at rest and lanes at rest. -/
lemma atRest_iff : d.AtRest ↔
    d.route? = none ∧ ∀ i l, d.lanes.get? i = some l → l.AtRest := by
  refine and_congr_right fun _ => ⟨fun rest i l found => ?_, fun rest i => ?_⟩
  · obtain ⟨begin, pass, finish⟩ := rest i
    cases state : l.state with
    | dead => exact .inl state
    | busy n =>
      simp [finish?, found, state] at finish
      cases finish .took
    | idle =>
      refine .inr ⟨state, ?_⟩
      cases queue : l.queue with
      | nil => rfl
      | cons item queued =>
        cases item with
        | event n => simp [begin?, found, state, queue] at begin
        | barrier b => simp [pass?, found, state, queue] at pass
  · cases found : d.lanes.get? i with
    | none => simp [begin?, pass?, finish?, found]
    | some l =>
      rcases rest i l found with dead | ⟨idle, empty⟩
      · simp [begin?, pass?, finish?, found, dead]
      · simp [begin?, pass?, finish?, found, idle, empty]

/-- It can be decided whether anything can move. -/
instance (d : Delivery) : Decidable d.AtRest :=
  decidable_of_iff (d.route? = none ∧ ∀ e ∈ d.lanes.toList, e.2.AtRest) <| by
    rw [atRest_iff]
    refine and_congr_right fun _ => ⟨fun rest i l found => ?_, fun rest e mem => ?_⟩
    · exact rest (i, l) (FinMap.get?_eq_some.mp found)
    · exact rest e.1 e.2 (FinMap.get?_eq_some.mpr mem)

/-- At rest, a callback that lives has returned for all events that the router has taken. -/
lemma Lineup.done (line : d.Lineup handle taken called ended) (rest : d.AtRest)
    (survived : ∀ e ∈ ended, e.2 ≠ .died) :
    called = events handle taken ∧ ended.map Prod.fst = events handle taken := by
  by_cases own : ∃ i, d.owner? i = some handle
  · obtain ⟨i, own⟩ := own
    obtain ⟨l, found, same⟩ := Option.map_eq_some_iff.mp own
    have order := line.lane i l found same
    rcases (atRest_iff.mp rest).2 i l found with dead | ⟨idle, empty⟩
    · obtain ⟨n, mem⟩ := order.dead dead
      exact absurd rfl (survived _ mem)
    · have split : called = ended.map Prod.fst := by
        simpa [Lane.current, idle] using order.split
      have all : events handle taken = called := by
        simpa [Lane.queued, empty] using order.rest (by simp [idle])
      exact ⟨all.symm, split.symm.trans all.symm⟩
  · obtain ⟨none, rfl, rfl⟩ := line.unseen fun i eq => own ⟨i, eq⟩
    exact ⟨none.symm, none.symm⟩

/-- A router at rest that was not asked to end has taken everything. -/
lemma Handed.all (handed : d.Handed actions taken) (running : d.router = .running)
    (rest : d.AtRest) : events handle taken = sent handle actions := by
  have empty : d.inbox = [] := by
    cases inbox : d.inbox with
    | nil => rfl
    | cons item queued => simp [AtRest, route?, running, inbox] at rest
  have whole := handed.whole (by simp [running])
  rw [empty, List.append_nil] at whole
  rw [whole, events_items]

/-! ## Counters -/

/-- No lane is dead. -/
def Alive (d : Delivery) : Prop := ∀ i l, d.lanes.get? i = some l → l.state ≠ .dead

/-- A lane is replaced by one that is not dead. -/
lemma Alive.insert (alive : d.Alive) (lane : l.state ≠ .dead) :
    { d with lanes := d.lanes.insert i l }.Alive := by
  intro j m found
  dsimp only at found
  rw [FinMap.get?_insert] at found
  split at found
  case isTrue => exact Option.some.inj found ▸ lane
  case isFalse => exact alive j m found

/-- A barrier kills no lane. -/
lemma Alive.pushBarrier (alive : d.Alive) (i : LaneId) : (d.pushBarrier i).2.Alive := by
  rcases d.push?_cases i (.barrier d.nextBarrier) with ⟨refused, -⟩ | ⟨l, found, lives, pushed⟩
  · rw [Delivery.pushBarrier, refused]
    exact alive
  · rw [Delivery.pushBarrier, pushed]
    exact alive.insert (l := l.push _) lives

/-- Barriers in several lanes kill none. -/
lemma Alive.pushBarriers (alive : d.Alive) (targets : List LaneId) :
    (d.pushBarriers targets).2.Alive := by
  induction targets generalizing d with
  | nil => exact alive
  | cons i rest ih => exact ih (alive.pushBarrier i)

/-- The counters count how callbacks have ended, as long as the router runs and no callback dies. -/
structure Tally (d : Delivery) (closed : List Closing) : Prop where
  delivered : d.delivered = closed.countP (·.ending = .took)
  dropped : d.dropped = closed.countP (·.ending = .failed)
  alive : d.Alive

/-- Nothing has been counted to begin with. -/
lemma Tally.new : new.Tally [] := ⟨rfl, rfl, nofun⟩

/-- An event that finds its lane is not counted yet. -/
lemma Tally.push (tally : d.Tally closed) {e : Event} (owner : d.owner? i = some e.handle) :
    ((d.push? i (.event e.notification)).getD { d with dropped := d.dropped + 1 }).Tally
      closed := by
  obtain ⟨l, found, -⟩ := Option.map_eq_some_iff.mp owner
  rcases d.push?_cases i (.event e.notification) with ⟨-, dead⟩ | ⟨l', -, lives, pushed⟩
  · exact absurd (dead l found) (tally.alive i l found)
  · rw [pushed]
    exact ⟨tally.delivered, tally.dropped, tally.alive.insert (l := l'.push _) lives⟩

/-- What the router takes is not counted. -/
lemma Tally.take (tally : d.Tally closed)
    (owner : ∀ k i, d.active.get? k = some i → d.owner? i = some k) (item : RouterItem) :
    (d.take item).Tally closed := by
  cases item with
  | deliver e callback =>
    rw [Delivery.take, routeDeliver, laneOf]
    cases found : d.active.get? e.handle with
    | some i => exact tally.push (owner _ i found)
    | none =>
      have alive : (d.openLane e.handle callback).2.Alive := tally.alive.insert (by simp)
      have opened : (d.openLane e.handle callback).2.Tally closed :=
        ⟨tally.delivered, tally.dropped, alive⟩
      exact opened.push ((owner?_openLane ..).trans (if_pos rfl))
  | retire h =>
    rw [Delivery.take, routeRetire]
    cases d.active.get? h with
    | none => exact ⟨tally.delivered, tally.dropped, tally.alive⟩
    | some i =>
      let d₁ : Delivery := { d with
        draining := d.draining.filter (· ∉ d.passed)
        active := d.active.erase h }
      have alive : (d₁.pushBarrier i).2.Alive := Alive.pushBarrier (d := d₁) tally.alive i
      dsimp only
      rw [pushBarrier_rest] at alive ⊢
      exact ⟨tally.delivered, tally.dropped, alive⟩
  | flush f =>
    have alive := tally.alive.pushBarriers (d.active.toList.map Prod.snd)
    rw [Delivery.take, routeFlush]
    dsimp only
    rw [pushBarriers_rest] at alive ⊢
    exact ⟨tally.delivered, tally.dropped, alive⟩

/-- A callback that returns is counted. -/
lemma Tally.finish (tally : d.Tally closed) (finished : d.finish? i ending = some d')
    (survived : ∀ c ∈ d.closed? (.finish i ending), c.ending ≠ .died) :
    d'.Tally (closed ++ (d.closed? (.finish i ending)).toList) := by
  obtain ⟨l, found, finished⟩ := Option.bind_eq_some_iff.mp finished
  have returned : ∀ n, l.state = .busy n →
      d.closed? (.finish i ending) = some ⟨l.handle, n, ending⟩ := by
    intro n busy
    simp only [closed?, found, Option.bind_eq_bind, Option.bind_some, busy]
  have alive : { d with lanes := d.lanes.insert i { l with state := .idle } }.Alive :=
    tally.alive.insert nofun
  split at finished
  case h_1 n busy _ =>
    obtain rfl := Option.some.inj finished
    rw [returned n busy]
    exact ⟨by simp [tally.delivered], by simp [tally.dropped], alive⟩
  case h_2 n busy _ =>
    obtain rfl := Option.some.inj finished
    rw [returned n busy]
    exact ⟨by simp [tally.delivered], by simp [tally.dropped], alive⟩
  case h_3 n busy _ => exact absurd rfl (survived _ (returned n busy))
  case h_4 => cases finished

/-- Every step keeps count. -/
lemma Tally.step (tally : d.Tally closed) (running : d.router = .running)
    (owner : ∀ k i, d.active.get? k = some i → d.owner? i = some k) (step : d.step? a = some d')
    (serving : a ≠ .stop) (survived : ∀ c ∈ d.closed? a, c.ending ≠ .died) :
    d'.Tally (closed ++ (d.closed? a).toList) := by
  have runs : d.router ≠ .stopped := by simp [running]
  cases a with
  | enqueue event callback =>
    obtain rfl := Option.some.inj step
    simp only [closed?, Option.toList_none, List.append_nil, enqueue, if_neg runs]
    exact ⟨tally.delivered, tally.dropped, tally.alive⟩
  | retire h =>
    obtain rfl := Option.some.inj step
    simp only [closed?, Option.toList_none, List.append_nil, retire, if_neg runs]
    exact ⟨tally.delivered, tally.dropped, tally.alive⟩
  | flush =>
    obtain rfl := Option.some.inj step
    simp only [closed?, Option.toList_none, List.append_nil, flush, if_neg runs]
    exact ⟨tally.delivered, tally.dropped, tally.alive⟩
  | stop => exact absurd rfl serving
  | route =>
    simp only [closed?, Option.toList_none, List.append_nil]
    rw [step?, route?] at step
    split at step
    case h_1 item rest _ _ =>
      obtain rfl := Option.some.inj step
      have tally : { d with inbox := rest }.Tally closed :=
        ⟨tally.delivered, tally.dropped, tally.alive⟩
      exact tally.take owner item
    case h_2 stopping =>
      rw [running] at stopping
      cases stopping
    case h_3 => cases step
  | begin i =>
    simp only [closed?, Option.toList_none, List.append_nil]
    obtain ⟨l, -, step⟩ := Option.bind_eq_some_iff.mp step
    split at step <;> cases step
    exact ⟨tally.delivered, tally.dropped, tally.alive.insert (by simp)⟩
  | finish i ending => exact tally.finish step survived
  | pass i =>
    simp only [closed?, Option.toList_none, List.append_nil]
    obtain ⟨l, found, step⟩ := Option.bind_eq_some_iff.mp step
    split at step <;> cases step
    have lives := tally.alive i l found
    exact ⟨tally.delivered, tally.dropped, tally.alive.insert lives⟩
  | resolve f =>
    simp only [closed?, Option.toList_none, List.append_nil]
    obtain ⟨bs, -, step⟩ := Option.bind_eq_some_iff.mp step
    split at step <;> cases step
    exact ⟨tally.delivered, tally.dropped, tally.alive⟩

/-- So does every run. -/
lemma tally_run (ran : Delivery.new.run? actions = some d) (orderly : Orderly actions)
    (serving : .stop ∉ actions)
    (survived : ∀ c ∈ closings Delivery.new actions, c.ending ≠ .died) :
    d.Tally (closings Delivery.new actions) := by
  revert orderly serving survived
  refine run_induction (P := fun actions d => Orderly actions → .stop ∉ actions →
    (∀ c ∈ closings Delivery.new actions, c.ending ≠ .died) →
    d.Tally (closings Delivery.new actions)) ?_ ?_ ran
  · exact fun _ _ _ => .new
  · intro before d a d' reached step ih orderly serving survived
    have seen : closings Delivery.new (before ++ [a]) =
        closings Delivery.new before ++ (d.closed? a).toList :=
      observed_snoc _ reached step
    rw [seen] at survived ⊢
    have served : .stop ∉ before := fun mem => serving (List.mem_append_left _ mem)
    -- the lanes of all handles are where the router believes them to be
    obtain ⟨taken, line, -⟩ := lined_run ⟨0⟩ reached orderly.of_append
    refine Tally.step (ih orderly.of_append served ?_) (running_run reached served)
      line.seats.owner step ?_ ?_
    · exact fun c mem => survived c (List.mem_append_left _ mem)
    · rintro rfl
      exact serving (List.mem_append_right _ (List.mem_singleton_self _))
    · exact fun c mem => survived c (List.mem_append_right _ (Option.mem_toList.mpr mem))

/-! ## One event, one end -/

/-- The calls to the callback of a handle are those of all callbacks that are its own. -/
lemma endings_eq_closings : endings handle d actions = (closings d actions).filterMap fun c =>
    if c.handle = handle then some (c.notification, c.ending) else none := by
  have each : ∀ (d : Delivery) a, d.ending? handle a = (d.closed? a).bind fun c =>
      if c.handle = handle then some (c.notification, c.ending) else none := by
    intro d a
    cases a with
    | finish i ending =>
      simp only [ending?, closed?, Option.bind_eq_bind, Option.bind_assoc]
      congr 1
      funext l
      cases l.state <;> rfl
    | _ => rfl
  induction actions generalizing d with
  | nil => rfl
  | cons a rest ih =>
    rw [endings, closings, observed, List.filterMap_append, each]
    congr 1
    · cases d.closed? a with
      | none => rfl
      | some c => cases h : decide (c.handle = handle) <;> simp_all
    · cases d.step? a with
      | none => rfl
      | some d' => exact ih

/-- If no callback dies, none of the handle does. -/
lemma survives (lived : ∀ c ∈ closings Delivery.new actions, c.ending ≠ .died) :
    Survives handle actions := by
  intro e mem
  rw [endings_eq_closings] at mem
  obtain ⟨c, listed, eq⟩ := List.mem_filterMap.mp mem
  split at eq <;> cases eq
  exact lived c listed

/-- The number of calls that ended for a handle. -/
lemma count_closings : ((closings d actions).map Closing.handle).count handle =
    (endings handle d actions).length := by
  rw [endings_eq_closings]
  induction closings d actions with
  | nil => rfl
  | cons c rest ih => by_cases own : c.handle = handle <;> simp [own, ih]

/-- The number of events that were enqueued for a handle. -/
lemma count_enqueued : ((enqueued actions).map Event.handle).count handle =
    (sent handle actions).length := by
  induction actions with
  | nil => rfl
  | cons a rest ih =>
    have cons : sent handle (a :: rest) = sent handle [a] ++ sent handle rest := by
      simp [sent]
    rw [cons, List.length_append, ← ih]
    cases a with
    | enqueue e callback =>
      by_cases own : e.handle = handle <;> simp [enqueued, sent, Event.to, own, Nat.add_comm]
    | _ => simp [enqueued, sent]

/-- When every handle has had all its events, there have been as many ends as events. -/
lemma length_closings (all : ∀ handle, (endings handle d actions).map Prod.fst =
    sent handle actions) : (closings d actions).length = (enqueued actions).length := by
  have perm : ((closings d actions).map Closing.handle).Perm
      ((enqueued actions).map Event.handle) := by
    rw [List.perm_iff_count]
    intro handle
    rw [count_closings, count_enqueued, ← all handle, List.length_map]
  simpa using perm.length_eq

/-- A callback that does not die takes its event or fails. -/
lemma countP_add_countP (survived : ∀ c ∈ closed, c.ending ≠ .died) :
    closed.countP (·.ending = .took) + closed.countP (·.ending = .failed) = closed.length := by
  induction closed with
  | nil => rfl
  | cons c rest ih =>
    have others := ih fun c mem => survived c (List.mem_cons_of_mem _ mem)
    have this := survived c (List.mem_cons_self ..)
    rw [List.countP_cons, List.countP_cons, List.length_cons]
    cases ending : c.ending with
    | took => simp; omega
    | failed => simp; omega
    | died => exact absurd ending this

/-- At all times, the callback of a handle has been called with the first of the events enqueued
for it, in their order. At rest it has been called with all of them and has returned once for each,
unless it died. If none has died, the counters count the events that were taken and those that
failed, and together all that were enqueued. -/
theorem in_order_exactly_once (ran : new.run? actions = some d) (orderly : Orderly actions) :
    (∀ handle, calls handle new actions <+: sent handle actions) ∧
    (.stop ∉ actions → d.AtRest →
      (∀ handle, Survives handle actions →
        calls handle new actions = sent handle actions ∧
        (endings handle new actions).map Prod.fst = sent handle actions) ∧
      ((∀ c ∈ closings new actions, c.ending ≠ .died) →
        d.delivered = (closings new actions).countP (·.ending = .took) ∧
        d.dropped = (closings new actions).countP (·.ending = .failed) ∧
        d.delivered + d.dropped = (enqueued actions).length)) := by
  refine ⟨fun handle => ?_, fun serving rest => ?_⟩
  · obtain ⟨taken, line, handed⟩ := lined_run handle ran orderly
    refine line.prefix.trans ?_
    obtain ⟨more, whole⟩ := handed.first
    have all : events handle (items 0 actions) = sent handle actions := events_items
    rw [← all, ← whole, events_append]
    exact List.prefix_append ..
  have running := running_run ran serving
  have settled : ∀ handle, Survives handle actions →
      calls handle new actions = sent handle actions ∧
      (endings handle new actions).map Prod.fst = sent handle actions := by
    intro handle survived
    obtain ⟨taken, line, handed⟩ := lined_run handle ran orderly
    rw [← handed.all running rest]
    exact line.done rest survived
  refine ⟨settled, fun survived => ?_⟩
  have tally := tally_run ran orderly serving survived
  refine ⟨tally.delivered, tally.dropped, ?_⟩
  rw [tally.delivered, tally.dropped, countP_add_countP survived]
  exact length_closings fun handle => (settled handle (survives survived)).2

/-- One callback is slow, the other fails; the second handle is retired with its event on the
way. -/
def shared : List Action :=
  [.enqueue ⟨⟨7⟩, ⟨1⟩, .lockReleased⟩ (.process "slow"), .route, .begin 0,
    .enqueue ⟨⟨8⟩, ⟨1⟩, .attrSet "e1"⟩ (.process "gone"),
    .enqueue ⟨⟨7⟩, ⟨1⟩, .lockAcquired⟩ (.process "slow"), .retire ⟨8⟩, .flush, .route, .route,
    .begin 1, .route, .finish 1 .failed, .pass 1, .route, .finish 0 .took, .begin 0,
    .finish 0 .took, .pass 0, .resolve 0]

/-- Both callbacks are called with all their events, and the failure of one is counted. -/
theorem in_order_exactly_once_shared : ∃ d, new.run? shared = some d ∧
    (∀ handle, calls handle new shared = sent handle shared) ∧ d.delivered = 2 ∧ d.dropped = 1 ∧
    d.delivered + d.dropped = (enqueued shared).length := by
  have ends : (new.run? shared).any (fun d => d.AtRest) := by
    decide +kernel
  obtain ⟨d, ran, rest⟩ := (Option.any_eq_true _ _).mp ends
  have orderly : Orderly shared := by simp [Orderly, shared]
  obtain ⟨-, settled⟩ := in_order_exactly_once ran orderly
  obtain ⟨all, counted⟩ := settled (by decide) (of_decide_eq_true rest)
  have lived : ∀ c ∈ closings new shared, c.ending ≠ .died := by decide +kernel
  obtain ⟨delivered, dropped, total⟩ := counted lived
  refine ⟨d, ran, fun handle => (all handle (survives lived)).1, delivered.trans ?_,
    dropped.trans ?_, total⟩ <;> decide +kernel

end Delivery

end Coordination
