import Coordination.Proofs.Delivery.Ledger

/-!
# The lane of a handle, whatever happens

A `Ledger` holds while the router runs and the callback of the handle lives. A `Lineup` says less
and holds in every run: the handle has one lane, which calls the callback with the events that the
router has taken, in their order. What is left of them is in its queue, unless the callback has died
and has taken the lane along.
-/

namespace Coordination

namespace Lane

/-- The events in the queue of a lane. -/
def queued (l : Lane) : List Notification := l.queue.filterMap LaneItem.event?

/-- A lane has called its callback with the first of the events seen, and has the others queued. -/
structure InOrder (l : Lane) (seen called : List Notification)
    (ended : List (Notification × Ending)) : Prop where
  split : called = ended.map Prod.fst ++ l.current
  first : called <+: seen
  rest : l.state ≠ .dead → seen = called ++ l.queued
  dead : l.state = .dead → ∃ n, (n, .died) ∈ ended

variable {l : Lane} {seen called : List Notification} {ended : List (Notification × Ending)}
variable {n : Notification} {rest : List LaneItem} {b : BarrierId} {ending : Ending}

/-- A lane that is made has nothing to do. -/
lemma inOrder_fresh (handle : HandleId) (callback : Callback) :
    (Lane.mk handle callback [] .idle).InOrder [] [] [] :=
  ⟨rfl, List.prefix_rfl, fun _ => rfl, nofun⟩

/-- A live lane queues an event behind the others. -/
lemma InOrder.push_event (order : l.InOrder seen called ended) (alive : l.state ≠ .dead)
    (n : Notification) : (l.push (.event n)).InOrder (seen ++ [n]) called ended where
  split := order.split
  first := order.first.trans (List.prefix_append ..)
  rest := fun _ => by simp [order.rest alive, push, queued]
  dead := order.dead

/-- A dead lane takes no events. -/
lemma InOrder.turn_away (order : l.InOrder seen called ended) (dead : l.state = .dead)
    (more : List Notification) : l.InOrder (seen ++ more) called ended where
  split := order.split
  first := order.first.trans (List.prefix_append ..)
  rest := fun alive => absurd dead alive
  dead := order.dead

/-- A barrier changes nothing about the events. -/
lemma InOrder.push_barrier (order : l.InOrder seen called ended) (b : BarrierId) :
    (l.push (.barrier b)).InOrder seen called ended where
  split := order.split
  first := order.first
  rest := fun alive => by simp [order.rest alive, push, queued]
  dead := order.dead

/-- An idle lane calls its callback with the first event of its queue. -/
lemma InOrder.begin (order : l.InOrder seen called ended) (idle : l.state = .idle)
    (queue : l.queue = .event n :: rest) :
    { l with state := .busy n, queue := rest }.InOrder seen (called ++ [n]) ended := by
  have same : seen = called ++ [n] ++ rest.filterMap LaneItem.event? := by
    have left := order.rest (by simp [idle])
    simpa [queued, queue] using left
  refine ⟨?_, ?_, fun _ => same, nofun⟩
  · have before := order.split
    simpa [current, idle] using before
  · rw [same]
    exact List.prefix_append ..

/-- A barrier at the head of the queue is passed. -/
lemma InOrder.pass (order : l.InOrder seen called ended)
    (queue : l.queue = .barrier b :: rest) :
    { l with queue := rest }.InOrder seen called ended := by
  refine ⟨order.split, order.first, fun alive => ?_, order.dead⟩
  have left := order.rest alive
  simpa [queued, queue, List.filterMap_cons] using left

/-- A callback returns. -/
lemma InOrder.returned (order : l.InOrder seen called ended) (busy : l.state = .busy n)
    (ending : Ending) : { l with state := .idle }.InOrder seen called (ended ++ [(n, ending)]) := by
  refine ⟨?_, order.first, fun _ => order.rest (by simp [busy]), nofun⟩
  have before := order.split
  simpa [current, busy] using before

/-- A callback dies. -/
lemma InOrder.died (order : l.InOrder seen called ended) (busy : l.state = .busy n) :
    { l with state := .dead, queue := [] }.InOrder seen called
      (ended ++ [(n, Ending.died)]) := by
  refine ⟨?_, order.first, fun alive => absurd rfl alive, fun _ => ⟨n, by simp⟩⟩
  have before := order.split
  simpa [current, busy] using before

end Lane

namespace Delivery

/-! ## Calls of callbacks -/

/-- The event with which a callback of a handle is called, if that is what happens. -/
def called? (d : Delivery) (handle : HandleId) : Action → Option Notification
  | .begin i => do
    let l ← d.lanes.get? i
    match l.state, l.queue with
    | .idle, .event n :: _ => if l.handle = handle then some n else none
    | _, _ => none
  | _ => none

/-- The events with which the callback of a handle is called one after another. -/
def calls (handle : HandleId) : Delivery → List Action → List Notification :=
  observed (·.called? handle ·)

/-- What is known of the lane of a handle when the router has taken some items. -/
structure Lineup (d : Delivery) (handle : HandleId) (taken : List RouterItem)
    (called : List Notification) (ended : List (Notification × Ending)) : Prop where
  seats : d.Seats handle (.retire handle ∈ taken ∨ d.router = .stopped)
  unseen : (∀ i, d.owner? i ≠ some handle) → events handle taken = [] ∧ called = [] ∧ ended = []
  lane : ∀ i l, d.lanes.get? i = some l → l.handle = handle →
    l.InOrder (events handle taken) called ended

/-- Items that were handed to the router wait for it, or it has taken them. When it ends, it leaves
what it has not taken. -/
structure Handed (d : Delivery) (actions : List Action) (taken : List RouterItem) : Prop where
  counted : d.nextFlush = actions.count .flush
  whole : d.router ≠ .stopped → taken ++ d.inbox = items 0 actions
  first : taken <+: items 0 actions

variable {d d' : Delivery} {handle h : HandleId} {taken taken' : List RouterItem}
variable {called called' : List Notification} {ended ended' : List (Notification × Ending)}
variable {actions : List Action} {a : Action} {item : RouterItem} {i : LaneId} {l l' : Lane}
variable {f : FlushId} {ending : Ending}

/-- No lane has been opened to begin with. -/
lemma Lineup.new : new.Lineup handle [] [] [] :=
  ⟨⟨nofun, nofun, nofun, nofun⟩, fun _ => ⟨rfl, rfl, rfl⟩, nofun⟩

/-- The callback is called in the order of the events. -/
lemma Lineup.prefix (line : d.Lineup handle taken called ended) :
    called <+: events handle taken := by
  by_cases own : ∃ i, d.owner? i = some handle
  · obtain ⟨i, own⟩ := own
    obtain ⟨l, found, same⟩ := Option.map_eq_some_iff.mp own
    exact (line.lane i l found same).first
  · rw [(line.unseen fun i eq => own ⟨i, eq⟩).2.1]
    exact List.nil_prefix

/-! ## Changes of the state -/

/-- Only lanes matter, and that the router does not run again. -/
lemma Lineup.alike (line : d.Lineup handle taken called ended) (lanes : d'.lanes = d.lanes)
    (active : d'.active = d.active) (next : d'.nextLane = d.nextLane)
    (stopped : d.router = .stopped → d'.router = .stopped) :
    d'.Lineup handle taken called ended := by
  have owner : ∀ i, d'.owner? i = d.owner? i := fun i => by rw [owner?, owner?, lanes]
  refine ⟨⟨?_, ?_, ?_, ?_⟩, ?_, ?_⟩
  · exact fun i k eq => (line.seats.old i k (owner i ▸ eq)).trans_eq next.symm
  · exact fun k i eq => (owner i).trans (line.seats.owner k i (active ▸ eq))
  · exact fun i j eq eq' => line.seats.single i j (owner i ▸ eq) (owner j ▸ eq')
  · intro i eq
    rw [active]
    exact (line.seats.opened i (owner i ▸ eq)).imp_right (·.imp_right stopped)
  · exact fun none => line.unseen fun i eq => none i ((owner i).trans eq)
  · exact fun i l found => line.lane i l (lanes ▸ found)

/-- One lane changes. -/
lemma Lineup.move (line : d.Lineup handle taken called ended) (found : d.lanes.get? i = some l)
    (l' : Lane) (same : l'.handle = l.handle)
    (kept : .retire handle ∈ taken → .retire handle ∈ taken')
    (own : l.handle = handle → l'.InOrder (events handle taken') called' ended')
    (foreign : l.handle ≠ handle →
      events handle taken' = events handle taken ∧ called' = called ∧ ended' = ended) :
    { d with lanes := d.lanes.insert i l' }.Lineup handle taken' called' ended' := by
  have owner := owner?_insert found same
  refine ⟨⟨?_, ?_, ?_, ?_⟩, ?_, ?_⟩
  · exact fun j k eq => line.seats.old j k ((owner j).symm.trans eq)
  · exact fun k j active => (owner j).trans (line.seats.owner k j active)
  · intro j k mine mine'
    exact line.seats.single j k ((owner j).symm.trans mine) ((owner k).symm.trans mine')
  · intro j mine
    exact (line.seats.opened j ((owner j).symm.trans mine)).imp_right (·.imp_left kept)
  · intro none
    have none : ∀ j, d.owner? j ≠ some handle := fun j mine => none j ((owner j).trans mine)
    obtain ⟨events', rfl, rfl⟩ := foreign fun mine => none i (mine ▸ owner?_of_get? found)
    rw [events']
    exact line.unseen none
  · intro j m found' mine
    rw [FinMap.get?_insert] at found'
    split at found'
    case isTrue =>
      obtain rfl := Option.some.inj found'
      exact own (same.symm.trans mine)
    case isFalse other =>
      -- the handle has one lane only
      have elsewhere : l.handle ≠ handle := fun here =>
        other (line.seats.single j i (mine ▸ owner?_of_get? found') (here ▸ owner?_of_get? found))
      obtain ⟨events', rfl, rfl⟩ := foreign elsewhere
      rw [events']
      exact line.lane j m found' mine

/-! ## What the router takes -/

/-- A barrier changes the lanes and the count of barriers only. -/
lemma pushBarrier_rest (d : Delivery) (i : LaneId) : (d.pushBarrier i).2 = { d with
    lanes := (d.pushBarrier i).2.lanes
    nextBarrier := (d.pushBarrier i).2.nextBarrier } := by
  rcases d.push?_cases i (.barrier d.nextBarrier) with ⟨refused, -⟩ | ⟨l, -, -, pushed⟩
  · rw [pushBarrier, refused]
  · rw [pushBarrier, pushed]

/-- Barriers in several lanes change the lanes and the count of barriers only. -/
lemma pushBarriers_rest (d : Delivery) (targets : List LaneId) : (d.pushBarriers targets).2 =
    { d with
      lanes := (d.pushBarriers targets).2.lanes
      nextBarrier := (d.pushBarriers targets).2.nextBarrier } := by
  induction targets generalizing d with
  | nil => rfl
  | cons i rest ih =>
    rw [pushBarriers]
    dsimp only
    rw [ih, pushBarrier_rest]

/-- A barrier keeps the account of every handle. -/
lemma Lineup.pushBarrier (line : d.Lineup handle taken called ended) (i : LaneId) :
    (d.pushBarrier i).2.Lineup handle taken called ended := by
  rcases d.push?_cases i (.barrier d.nextBarrier) with ⟨refused, -⟩ | ⟨l, found, -, pushed⟩
  · rw [Delivery.pushBarrier, refused]
    exact line
  · rw [Delivery.pushBarrier, pushed]
    have order := fun mine => (line.lane i l found mine).push_barrier d.nextBarrier
    have moved := line.move found (l.push (.barrier d.nextBarrier)) rfl id order
      fun _ => ⟨rfl, rfl, rfl⟩
    exact moved.alike rfl rfl rfl id

/-- Barriers in several lanes keep the account of every handle. -/
lemma Lineup.pushBarriers (line : d.Lineup handle taken called ended) (targets : List LaneId) :
    (d.pushBarriers targets).2.Lineup handle taken called ended := by
  induction targets generalizing d with
  | nil => exact line
  | cons i rest ih => exact ih (line.pushBarrier i)

/-- An item that concerns the handle neither as an event nor as its end. -/
lemma Lineup.snoc (line : d.Lineup handle taken called ended)
    (none : events handle [item] = []) : d.Lineup handle (taken ++ [item]) called ended := by
  have same : events handle (taken ++ [item]) = events handle taken := by
    rw [events_append, none, List.append_nil]
  refine ⟨⟨line.seats.old, line.seats.owner, line.seats.single, ?_⟩, ?_, ?_⟩
  · exact fun i mine =>
      (line.seats.opened i mine).imp_right (·.imp_left (List.mem_append_left _))
  · rw [same]
    exact line.unseen
  · rw [same]
    exact line.lane

/-- A lane is opened for a handle that has none and has not been retired. -/
lemma Lineup.openLane (line : d.Lineup handle taken called ended) (callback : Callback)
    (closed : d.active.get? h = none) (before : .retire h ∉ taken)
    (running : d.router ≠ .stopped) :
    (d.openLane h callback).2.Lineup handle taken called ended := by
  have first : h = handle → ∀ j, d.owner? j ≠ some handle := by
    rintro rfl j mine
    rcases line.seats.opened j mine with active | retired | stopped
    · exact nomatch closed.symm.trans active
    · exact before retired
    · exact running stopped
  refine ⟨line.seats.openLane callback closed first, ?_, ?_⟩
  · exact fun none => line.unseen fun j mine => none j (line.seats.owner?_openLane callback mine)
  · intro j m found mine
    rw [Delivery.openLane] at found
    dsimp only at found
    rw [FinMap.get?_insert] at found
    split at found
    case isTrue =>
      obtain rfl := Option.some.inj found
      obtain ⟨none, rfl, rfl⟩ := line.unseen (first mine)
      rw [none]
      exact Lane.inOrder_fresh h callback
    case isFalse => exact line.lane j m found mine

/-- An event goes to the lane of its handle, or is dropped if that is dead. -/
lemma Lineup.push (line : d.Lineup handle taken called ended) {e : Event} (callback : Callback)
    (owner : d.owner? i = some e.handle) :
    ((d.push? i (.event e.notification)).getD { d with dropped := d.dropped + 1 }).Lineup handle
      (taken ++ [.deliver e callback]) called ended := by
  have kept : .retire handle ∈ taken → .retire handle ∈ taken ++ [.deliver e callback] :=
    List.mem_append_left _
  obtain ⟨l, found, same⟩ := Option.map_eq_some_iff.mp owner
  have seen : l.handle = handle →
      events handle (taken ++ [.deliver e callback]) = events handle taken ++ [e.notification] := by
    intro mine
    rw [events_snoc_deliver, Event.to, if_pos (same ▸ mine)]
  have foreign : l.handle ≠ handle →
      events handle (taken ++ [.deliver e callback]) = events handle taken := by
    intro other
    rw [events_snoc_deliver, Event.to_of_ne (same ▸ other), List.append_nil]
  rcases d.push?_cases i (.event e.notification) with ⟨refused, dead⟩ | ⟨l', found', alive, pushed⟩
  · rw [refused]
    -- a lane that is dead stays as it is
    have stays : d.lanes.insert i l = d.lanes := FinMap.insert_eq_self found
    have order : l.handle = handle →
        l.InOrder (events handle (taken ++ [.deliver e callback])) called ended := by
      intro mine
      rw [seen mine]
      exact (line.lane i l found mine).turn_away (dead l found) _
    have moved := line.move found l rfl kept order fun other => ⟨foreign other, rfl, rfl⟩
    exact moved.alike stays.symm rfl rfl id
  · obtain rfl := Option.some.inj (found.symm.trans found')
    rw [pushed]
    refine line.move found _ rfl kept ?_ fun other => ⟨foreign other, rfl, rfl⟩
    intro mine
    rw [seen mine]
    exact (line.lane i l found mine).push_event alive _

/-- An event is queued in the lane of its handle, which is opened if need be. -/
lemma Lineup.deliver (line : d.Lineup handle taken called ended) {e : Event} {callback : Callback}
    (before : .retire e.handle ∉ taken) (running : d.router ≠ .stopped) :
    (d.routeDeliver e callback).Lineup handle (taken ++ [.deliver e callback]) called ended := by
  rw [routeDeliver, laneOf]
  cases found : d.active.get? e.handle with
  | some i => exact line.push callback (line.seats.owner _ i found)
  | none =>
    refine (line.openLane callback found before running).push callback ?_
    exact (owner?_openLane ..).trans (if_pos rfl)

/-- A handle is retired, and its lane is no longer open. -/
lemma Lineup.close (line : d.Lineup handle taken called ended) (h : HandleId) :
    { d with active := d.active.erase h }.Lineup handle
      (taken ++ [RouterItem.retire h]) called ended := by
  have none : events handle [.retire h] = [] := rfl
  have line := line.snoc none
  refine ⟨⟨line.seats.old, ?_, line.seats.single, ?_⟩, line.unseen, line.lane⟩
  · intro k i eq
    dsimp only at eq
    rw [FinMap.get?_erase] at eq
    split at eq
    case isTrue => cases eq
    case isFalse => exact line.seats.owner k i eq
  · intro i mine
    dsimp only
    rw [FinMap.get?_erase]
    split
    case isTrue this =>
      exact .inr (.inl (this ▸ List.mem_append_right _ (List.mem_singleton_self _)))
    case isFalse => exact line.seats.opened i mine

/-- A retired handle gives its lane up. -/
lemma Lineup.retire (line : d.Lineup handle taken called ended) (h : HandleId) :
    (d.routeRetire h).Lineup handle (taken ++ [.retire h]) called ended := by
  let d₁ : Delivery := { d with draining := d.draining.filter (· ∉ d.passed) }
  have line : d₁.Lineup handle taken called ended := line.alike rfl rfl rfl id
  rw [routeRetire]
  dsimp only
  cases found : d.active.get? h with
  | none =>
    have same : d.active.erase h = d.active := FinMap.erase_eq_self found
    exact (line.close h).alike rfl same.symm rfl id
  | some i => exact ((line.close h).pushBarrier i).alike rfl rfl rfl id

/-- A flush queues barriers only. -/
lemma Lineup.flush (line : d.Lineup handle taken called ended) (f : FlushId) :
    (d.routeFlush f).Lineup handle (taken ++ [.flush f]) called ended := by
  have none : events handle [.flush f] = [] := rfl
  exact ((line.snoc none).pushBarriers _).alike rfl rfl rfl id

/-- The router takes an item. -/
lemma Lineup.take (line : d.Lineup handle taken called ended)
    (arrival : ∀ e callback, item = .deliver e callback → .retire e.handle ∉ taken)
    (running : d.router ≠ .stopped) :
    (d.take item).Lineup handle (taken ++ [item]) called ended := by
  cases item with
  | deliver e callback => exact line.deliver (arrival e callback rfl) running
  | retire h => exact line.retire h
  | flush f => exact line.flush f

/-- The router ends. -/
lemma Lineup.halt (line : d.Lineup handle taken called ended) :
    d.halt.Lineup handle taken called ended :=
  ⟨⟨line.seats.old, nofun, line.seats.single, fun _ _ => .inr (.inr rfl)⟩, line.unseen, line.lane⟩

/-! ## What lanes do -/

/-- A call to the callback is accounted for. -/
lemma Lineup.begin (line : d.Lineup handle taken called ended) (begun : d.begin? i = some d') :
    d'.Lineup handle taken (called ++ (d.called? handle (.begin i)).toList) ended := by
  obtain ⟨l, found, begun⟩ := Option.bind_eq_some_iff.mp begun
  split at begun
  case h_1 n rest idle queue =>
    obtain rfl := Option.some.inj begun
    have calling : d.called? handle (.begin i) = if l.handle = handle then some n else none := by
      simp only [called?, found, Option.bind_eq_bind, Option.bind_some, idle, queue]
    rw [calling]
    refine line.move found _ rfl id ?_ ?_
    · intro mine
      rw [if_pos mine]
      exact (line.lane i l found mine).begin idle queue
    · intro other
      rw [if_neg other]
      exact ⟨rfl, List.append_nil _, rfl⟩
  case h_2 => cases begun

/-- A lane that passes a barrier calls nobody. -/
lemma Lineup.pass (line : d.Lineup handle taken called ended) (passed : d.pass? i = some d') :
    d'.Lineup handle taken called ended := by
  obtain ⟨l, found, passed⟩ := Option.bind_eq_some_iff.mp passed
  split at passed
  case h_1 b rest _ queue =>
    obtain rfl := Option.some.inj passed
    have order := fun mine => (line.lane i l found mine).pass queue
    have moved := line.move found { l with queue := rest } rfl id order
      fun _ => ⟨rfl, rfl, rfl⟩
    exact moved.alike rfl rfl rfl id
  case h_2 => cases passed

/-- The end of a call is accounted for, whatever it is. -/
lemma Lineup.finish (line : d.Lineup handle taken called ended)
    (finished : d.finish? i ending = some d') :
    d'.Lineup handle taken called (ended ++ (d.ending? handle (.finish i ending)).toList) := by
  obtain ⟨l, found, finished⟩ := Option.bind_eq_some_iff.mp finished
  have returned : ∀ n, l.state = .busy n → d.ending? handle (.finish i ending) =
      if l.handle = handle then some (n, ending) else none := by
    intro n busy
    simp only [ending?, found, Option.bind_eq_bind, Option.bind_some, busy]
  -- what is seen of the end of a callback, by the lane it belongs to
  have moved : ∀ n l', l.state = .busy n → l'.handle = l.handle →
      (l.handle = handle → l'.InOrder (events handle taken) called (ended ++ [(n, ending)])) →
      { d with lanes := d.lanes.insert i l' }.Lineup handle taken called
        (ended ++ (d.ending? handle (.finish i ending)).toList) := by
    intro n l' busy same order
    rw [returned n busy]
    refine line.move found l' same id ?_ ?_
    · intro mine
      rw [if_pos mine]
      exact order mine
    · intro other
      rw [if_neg other]
      exact ⟨rfl, rfl, List.append_nil _⟩
  split at finished
  case h_1 n busy _ =>
    obtain rfl := Option.some.inj finished
    have order := fun mine => (line.lane i l found mine).returned busy .took
    exact (moved n { l with state := .idle } busy rfl order).alike rfl rfl rfl id
  case h_2 n busy _ =>
    obtain rfl := Option.some.inj finished
    have order := fun mine => (line.lane i l found mine).returned busy .failed
    exact (moved n { l with state := .idle } busy rfl order).alike rfl rfl rfl id
  case h_3 n busy _ =>
    obtain rfl := Option.some.inj finished
    have order := fun mine => (line.lane i l found mine).died busy
    exact (moved n { l with state := .dead, queue := [] } busy rfl order).alike rfl rfl rfl id
  case h_4 => cases finished

/-! ## Runs -/

/-- Nothing has been handed over to begin with. -/
lemma Handed.new : new.Handed [] [] := ⟨rfl, fun _ => rfl, List.prefix_rfl⟩

/-- What a call hands over is queued, unless the router has ended. -/
lemma Handed.snoc (handed : d.Handed actions taken)
    (running : d'.router ≠ .stopped → d.router ≠ .stopped ∧
      d'.inbox = d.inbox ++ (item? d.nextFlush a).toList)
    (counted : d'.nextFlush = d.nextFlush + [a].count .flush) :
    d'.Handed (actions ++ [a]) taken := by
  have more : items 0 (actions ++ [a]) = items 0 actions ++ (item? d.nextFlush a).toList := by
    rw [items_append, items, items, List.append_nil, Nat.zero_add, handed.counted]
  refine ⟨?_, fun runs => ?_, ?_⟩
  · rw [counted, handed.counted, List.count_append]
  · obtain ⟨ran, inbox⟩ := running runs
    rw [inbox, ← List.append_assoc, handed.whole ran, more]
  · rw [more]
    exact handed.first.trans (List.prefix_append ..)

/-- The router takes the first of the items that wait. -/
lemma Handed.take (handed : d.Handed actions taken) {rest : List RouterItem}
    (next : d.inbox = item :: rest) (running : d.router = .running)
    (same : d'.inbox = rest ∧ d'.nextFlush = d.nextFlush) :
    d'.Handed (actions ++ [.route]) (taken ++ [item]) := by
  have whole : taken ++ item :: rest = items 0 actions := by
    rw [← next]
    exact handed.whole (by simp [running])
  have more : items 0 (actions ++ [.route]) = items 0 actions := by
    simp [items_append, items, item?]
  refine ⟨?_, fun _ => ?_, ?_⟩
  · rw [same.2, handed.counted, List.count_append]
    rfl
  · rw [same.1, more, ← whole, List.append_assoc]
    rfl
  · rw [more, ← whole]
    exact ⟨rest, by simp⟩

/-- Taking an item hands nothing over, and the router goes on. -/
lemma take_frame (d : Delivery) (item : RouterItem) :
    (d.take item).router = d.router ∧ (d.take item).inbox = d.inbox ∧
      (d.take item).nextFlush = d.nextFlush := by
  cases item with
  | deliver e callback =>
    have opened : ∀ i (d₁ : Delivery), d.laneOf e.handle callback = (i, d₁) →
        d₁.router = d.router ∧ d₁.inbox = d.inbox ∧ d₁.nextFlush = d.nextFlush := by
      intro i d₁ eq
      rw [laneOf] at eq
      split at eq <;> cases eq <;> exact ⟨rfl, rfl, rfl⟩
    have same := opened _ _ rfl
    rw [take, routeDeliver]
    dsimp only
    rcases push?_cases (d.laneOf e.handle callback).2 (d.laneOf e.handle callback).1
      (.event e.notification) with ⟨refused, -⟩ | ⟨l, -, -, pushed⟩
    · rw [refused]
      exact same
    · rw [pushed]
      exact same
  | retire h =>
    rw [take, routeRetire]
    cases found : d.active.get? h with
    | none => exact ⟨rfl, rfl, rfl⟩
    | some i =>
      dsimp only
      rw [pushBarrier_rest]
      exact ⟨rfl, rfl, rfl⟩
  | flush f =>
    rw [take, routeFlush]
    dsimp only
    rw [pushBarriers_rest]
    exact ⟨rfl, rfl, rfl⟩

/-- Lanes and flushes hand nothing over, and the router goes on. -/
lemma frame_inside (step : d.step? a = some d') (silent : ∀ n, item? n a = none)
    (other : a ≠ .route) (serving : a ≠ .stop) :
    d'.router = d.router ∧ d'.inbox = d.inbox ∧ d'.nextFlush = d.nextFlush := by
  cases a with
  | enqueue event callback => exact nomatch silent 0
  | retire h => exact nomatch silent 0
  | flush => exact nomatch silent 0
  | stop => exact absurd rfl serving
  | route => exact absurd rfl other
  | begin i =>
    obtain ⟨l, -, step⟩ := Option.bind_eq_some_iff.mp step
    split at step <;> cases step
    exact ⟨rfl, rfl, rfl⟩
  | finish i ending =>
    obtain ⟨l, -, step⟩ := Option.bind_eq_some_iff.mp step
    split at step <;> cases step <;> exact ⟨rfl, rfl, rfl⟩
  | pass i =>
    obtain ⟨l, -, step⟩ := Option.bind_eq_some_iff.mp step
    split at step <;> cases step
    exact ⟨rfl, rfl, rfl⟩
  | resolve f =>
    obtain ⟨bs, -, step⟩ := Option.bind_eq_some_iff.mp step
    split at step <;> cases step
    exact ⟨rfl, rfl, rfl⟩

/-- The router ends only when it is asked to. -/
lemma running_step (running : d.router = .running) (step : d.step? a = some d')
    (serving : a ≠ .stop) : d'.router = .running := by
  have runs : d.router ≠ .stopped := by simp [running]
  cases a with
  | enqueue event callback =>
    obtain rfl := Option.some.inj step
    rwa [enqueue, if_neg runs]
  | retire h =>
    obtain rfl := Option.some.inj step
    rwa [retire, if_neg runs]
  | flush =>
    obtain rfl := Option.some.inj step
    simpa [flush, runs] using running
  | stop => exact absurd rfl serving
  | route =>
    rw [step?, route?] at step
    split at step
    case h_1 item rest _ _ =>
      obtain rfl := Option.some.inj step
      exact (take_frame { d with inbox := rest } item).1.trans running
    case h_2 stopping => exact nomatch running.symm.trans stopping
    case h_3 => cases step
  | begin i => exact (frame_inside step (fun _ => rfl) nofun nofun).1.trans running
  | finish i ending => exact (frame_inside step (fun _ => rfl) nofun nofun).1.trans running
  | pass i => exact (frame_inside step (fun _ => rfl) nofun nofun).1.trans running
  | resolve f => exact (frame_inside step (fun _ => rfl) nofun nofun).1.trans running

/-- The router runs on as long as it is not asked to stop. -/
lemma running_run (ran : Delivery.new.run? actions = some d) (serving : .stop ∉ actions) :
    d.router = .running := by
  revert serving
  refine run_induction (P := fun actions d => .stop ∉ actions → d.router = .running) ?_ ?_ ran
  · exact fun _ => rfl
  · intro before d a d' _ step ih serving
    refine running_step (ih fun mem => serving (List.mem_append_left _ mem)) step ?_
    rintro rfl
    exact serving (List.mem_append_right _ (List.mem_singleton_self _))

/-- After a history, the lane of a handle accounts for what the router has taken. -/
def Lined (d : Delivery) (handle : HandleId) (actions : List Action) (called : List Notification)
    (ended : List (Notification × Ending)) : Prop :=
  ∃ taken, d.Lineup handle taken called ended ∧ d.Handed actions taken

/-- Something is handed to the router, or it is asked to end. -/
lemma Lined.call (lined : d.Lined handle actions called ended) (lanes : d'.lanes = d.lanes)
    (active : d'.active = d.active) (next : d'.nextLane = d.nextLane)
    (stopped : d.router = .stopped → d'.router = .stopped)
    (inbox : d.router ≠ .stopped → d'.inbox = d.inbox ++ (item? d.nextFlush a).toList)
    (counted : d'.nextFlush = d.nextFlush + [a].count .flush) :
    d'.Lined handle (actions ++ [a]) called ended := by
  obtain ⟨taken, line, handed⟩ := lined
  refine ⟨taken, line.alike lanes active next stopped, handed.snoc (fun runs => ?_) counted⟩
  have ran : d.router ≠ .stopped := fun eq => runs (stopped eq)
  exact ⟨ran, inbox ran⟩

/-- A lane moves. -/
lemma Lined.inside (lined : d.Lined handle actions called ended) (step : d.step? a = some d')
    (silent : ∀ n, item? n a = none) (own : a ≠ .route) (serving : a ≠ .stop) (other : a ≠ .flush)
    (move : ∀ taken, d.Lineup handle taken called ended →
      d'.Lineup handle taken called' ended') :
    d'.Lined handle (actions ++ [a]) called' ended' := by
  obtain ⟨taken, line, handed⟩ := lined
  obtain ⟨router, inbox, nextFlush⟩ := frame_inside step silent own serving
  refine ⟨taken, move taken line, handed.snoc (fun runs => ⟨router ▸ runs, ?_⟩) ?_⟩
  · rw [inbox, silent]
    exact (List.append_nil _).symm
  · rw [nextFlush, List.count_singleton]
    simp [other]

/-- The router takes an item, or ends if it was asked to. -/
lemma Lined.route (lined : d.Lined handle actions called ended) (orderly : Orderly actions)
    (step : d.route? = some d') : d'.Lined handle (actions ++ [.route]) called ended := by
  obtain ⟨taken, line, handed⟩ := lined
  rw [route?] at step
  split at step
  case h_1 item rest running next =>
    obtain rfl := Option.some.inj step
    have runs : d.router ≠ .stopped := by simp [running]
    have whole := handed.whole runs
    rw [next] at whole
    have arrival : ∀ e callback, item = .deliver e callback → .retire e.handle ∉ taken := by
      rintro e callback rfl
      exact orderly.not_retired whole.symm
    have line : { d with inbox := rest }.Lineup handle taken called ended :=
      line.alike rfl rfl rfl id
    have frame := take_frame { d with inbox := rest } item
    exact ⟨taken ++ [item], line.take arrival runs, handed.take next running frame.2⟩
  case h_2 stopping =>
    obtain rfl := Option.some.inj step
    exact ⟨taken, line.halt, handed.snoc (fun runs => absurd rfl runs) rfl⟩
  case h_3 => cases step

/-- Every step keeps the account. -/
lemma Lined.step (lined : d.Lined handle actions called ended) (orderly : Orderly actions)
    (step : d.step? a = some d') :
    d'.Lined handle (actions ++ [a]) (called ++ (d.called? handle a).toList)
      (ended ++ (d.ending? handle a).toList) := by
  cases a with
  | enqueue event callback =>
    obtain rfl := Option.some.inj step
    simp only [called?, ending?, Option.toList_none, List.append_nil, enqueue]
    split
    case isTrue stopped => exact lined.call rfl rfl rfl id (absurd stopped) rfl
    case isFalse => exact lined.call rfl rfl rfl id (fun _ => rfl) rfl
  | retire h =>
    obtain rfl := Option.some.inj step
    simp only [called?, ending?, Option.toList_none, List.append_nil, retire]
    split
    case isTrue stopped => exact lined.call rfl rfl rfl id (absurd stopped) rfl
    case isFalse => exact lined.call rfl rfl rfl id (fun _ => rfl) rfl
  | flush =>
    obtain rfl := Option.some.inj step
    simp only [called?, ending?, Option.toList_none, List.append_nil, flush]
    split
    case isTrue stopped => exact lined.call rfl rfl rfl id (absurd stopped) rfl
    case isFalse => exact lined.call rfl rfl rfl id (fun _ => rfl) rfl
  | stop =>
    obtain rfl := Option.some.inj step
    simp only [called?, ending?, Option.toList_none, List.append_nil, stop]
    split
    case isTrue running =>
      have stopped : d.router = .stopped → RouterState.stopping = .stopped :=
        fun eq => by rw [running] at eq; cases eq
      exact lined.call rfl rfl rfl stopped (fun _ => (List.append_nil _).symm) rfl
    case isFalse => exact lined.call rfl rfl rfl id (fun _ => (List.append_nil _).symm) rfl
  | route =>
    simp only [called?, ending?, Option.toList_none, List.append_nil]
    exact lined.route orderly step
  | begin i =>
    simp only [ending?, Option.toList_none, List.append_nil]
    exact lined.inside step (fun _ => rfl) (by simp) (by simp) (by simp)
      fun taken line => line.begin step
  | finish i ending =>
    simp only [called?, Option.toList_none, List.append_nil]
    exact lined.inside step (fun _ => rfl) (by simp) (by simp) (by simp)
      fun taken line => line.finish step
  | pass i =>
    simp only [called?, ending?, Option.toList_none, List.append_nil]
    exact lined.inside step (fun _ => rfl) (by simp) (by simp) (by simp)
      fun taken line => line.pass step
  | resolve f =>
    simp only [called?, ending?, Option.toList_none, List.append_nil]
    refine lined.inside step (fun _ => rfl) (by simp) (by simp) (by simp) fun taken line => ?_
    obtain ⟨bs, -, step⟩ := Option.bind_eq_some_iff.mp step
    split at step <;> cases step
    exact line.alike rfl rfl rfl id

/-- So does every run. -/
lemma lined_run (handle : HandleId) (ran : Delivery.new.run? actions = some d)
    (orderly : Orderly actions) :
    d.Lined handle actions (calls handle Delivery.new actions)
      (endings handle Delivery.new actions) := by
  revert orderly
  refine run_induction (P := fun actions d => Orderly actions → d.Lined handle actions
    (calls handle Delivery.new actions) (endings handle Delivery.new actions)) ?_ ?_ ran
  · exact fun _ => ⟨[], .new, .new⟩
  · intro before d a d' reached step ih orderly
    rw [calls, endings_eq_observed, observed_snoc _ reached step, observed_snoc _ reached step,
      ← endings_eq_observed]
    exact (ih orderly.of_append).step orderly.of_append step

end Delivery

end Coordination
