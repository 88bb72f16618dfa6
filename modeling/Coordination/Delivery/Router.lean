import Coordination.Delivery.Command

/-!
# Delivery of events

A router gives every handle a lane of its own, made with the handle's first event, in which events
are delivered one at a time. So the events of a handle arrive in order, and a slow callback delays
no other handle. A lane ends some time after its handle is retired, when its queue has drained.

To know when queues have drained, the router puts barriers into them. A flush is resolved when all
barriers it waits for are.

A router that is asked to stop ends with its next move; what it has not taken by then is lost.
From then on events are dropped and flushes resolved at once.

`Delivery.step?` is the small-step behaviour: the router and every lane move on their own, in any
order. A lane between `begin` and `finish` is inside its callback.
-/

namespace Coordination

/-- Lanes are numbered in the order in which they are made. -/
abbrev LaneId := Nat

/-- Barriers are numbered in the order in which they are made. -/
abbrev BarrierId := Nat

/-- Flushes are numbered in the order in which they are asked for. -/
abbrev FlushId := Nat

/-- What a lane has to do. -/
inductive LaneItem where
  | event (notification : Notification)
  | barrier (id : BarrierId)
  deriving DecidableEq

/-- What a lane is doing. -/
inductive LaneState where
  | idle
  /-- The lane is inside its callback. -/
  | busy (notification : Notification)
  /-- The callback took the lane down with it. -/
  | dead
  deriving DecidableEq

/-- The queue of one handle. A lane keeps the callback of its first event. -/
structure Lane where
  handle : HandleId
  callback : Callback
  queue : List LaneItem
  state : LaneState
  deriving DecidableEq

/-- What waits for the router. -/
inductive RouterItem where
  | deliver (event : Event) (callback : Callback)
  | retire (handle : HandleId)
  | flush (id : FlushId)
  deriving DecidableEq

/-- A notification that a callback took. -/
structure Receipt where
  handle : HandleId
  callback : Callback
  notification : Notification
  deriving DecidableEq

/-- What becomes of the router. -/
inductive RouterState where
  | running
  /-- It ends with its next move. Until then things can be queued, but it takes none of them. -/
  | stopping
  | stopped
  deriving DecidableEq

/-- The state of delivery. All that is counted is counted without a bound, so that no counter of 64
bits overflows. -/
structure Delivery where
  router : RouterState
  inbox : List RouterItem
  lanes : FinMap LaneId Lane
  /-- The lanes of the handles that are not retired. -/
  active : FinMap HandleId LaneId
  /-- Barriers at the end of retired lanes. -/
  draining : List BarrierId
  /-- Barriers that a lane has passed, or that died with it. -/
  passed : FinSet BarrierId
  /-- The barriers that a flush waits for. -/
  waiting : FinMap FlushId (List BarrierId)
  /-- Flushes that are resolved. -/
  resolved : FinSet FlushId
  nextLane : LaneId
  nextBarrier : BarrierId
  nextFlush : FlushId
  delivered : Nat
  dropped : Nat
  /-- The number of retired lanes the router keeps track of, as it last counted them. -/
  drainingCount : Nat
  /-- What callbacks took, oldest first. -/
  receipts : List Receipt
  deriving DecidableEq

/-- How a callback ends. -/
inductive Ending where
  | took
  | failed
  | died
  deriving DecidableEq

/-- What can happen next. The first four come from outside. -/
inductive Action where
  | enqueue (event : Event) (callback : Callback)
  | retire (handle : HandleId)
  | flush
  | stop
  /-- The router takes its next item, or ends. -/
  | route
  /-- A lane calls its callback with its next event. -/
  | begin (lane : LaneId)
  /-- The callback of a lane returns. -/
  | finish (lane : LaneId) (ending : Ending)
  /-- A lane passes its next barrier. -/
  | pass (lane : LaneId)
  /-- A flush finds all its barriers passed. -/
  | resolve (flush : FlushId)
  deriving DecidableEq

namespace Delivery

/-- A router that has nothing to do. -/
def new : Delivery where
  router := .running
  inbox := []
  lanes := .empty
  active := .empty
  draining := []
  passed := .empty
  waiting := .empty
  resolved := .empty
  nextLane := 0
  nextBarrier := 0
  nextFlush := 0
  delivered := 0
  dropped := 0
  drainingCount := 0
  receipts := []

/-! ## From outside -/

/-- Queues an event; without a router it is dropped. -/
def enqueue (d : Delivery) (event : Event) (callback : Callback) : Delivery :=
  if d.router = .stopped then { d with dropped := d.dropped + 1 }
  else { d with inbox := d.inbox ++ [.deliver event callback] }

/-- Queues the end of a handle. -/
def retire (d : Delivery) (handle : HandleId) : Delivery :=
  if d.router = .stopped then d else { d with inbox := d.inbox ++ [.retire handle] }

/-- Queues a flush; without a router it is resolved at once. -/
def flush (d : Delivery) : Delivery :=
  let id := d.nextFlush
  let d := { d with nextFlush := id + 1 }
  if d.router = .stopped then { d with resolved := d.resolved.add id }
  else { d with inbox := d.inbox ++ [.flush id] }

/-- Queues a command of the coordinator. -/
def accept (d : Delivery) : Command → Delivery
  | .deliver event callback => d.enqueue event callback
  | .retire handle => d.retire handle

/-- Asks the router to end. -/
def stop (d : Delivery) : Delivery :=
  if d.router = .running then { d with router := .stopping } else d

/-! ## The router -/

/-- Puts an item at the end of a lane's queue, unless the lane is dead. -/
def push? (d : Delivery) (id : LaneId) (item : LaneItem) : Option Delivery := do
  let lane ← d.lanes.get? id
  if lane.state = .dead then none
  else some { d with lanes := d.lanes.insert id { lane with queue := lane.queue ++ [item] } }

/-- Makes a lane for a handle. -/
def openLane (d : Delivery) (handle : HandleId) (callback : Callback) : LaneId × Delivery :=
  let id := d.nextLane
  (id, { d with
    nextLane := id + 1
    lanes := d.lanes.insert id ⟨handle, callback, [], .idle⟩
    active := d.active.insert handle id })

/-- The lane of a handle, made if there is none. -/
def laneOf (d : Delivery) (handle : HandleId) (callback : Callback) : LaneId × Delivery :=
  match d.active.get? handle with
  | some id => (id, d)
  | none => d.openLane handle callback

/-- Puts a fresh barrier into a lane; returns it unless the lane is dead. -/
def pushBarrier (d : Delivery) (lane : LaneId) : Option BarrierId × Delivery :=
  let id := d.nextBarrier
  match d.push? lane (.barrier id) with
  | some d => (some id, { d with nextBarrier := id + 1 })
  | none => (none, d)

/-- Puts a fresh barrier into each of the lanes; returns those that were put. -/
def pushBarriers (d : Delivery) : List LaneId → List BarrierId × Delivery
  | [] => ([], d)
  | lane :: rest =>
    let (barrier, d) := d.pushBarrier lane
    let (barriers, d) := d.pushBarriers rest
    (barrier.toList ++ barriers, d)

/-- Gives an event to the lane of its handle. -/
def routeDeliver (d : Delivery) (event : Event) (callback : Callback) : Delivery :=
  let (lane, d) := d.laneOf event.handle callback
  (d.push? lane (.event event.notification)).getD { d with dropped := d.dropped + 1 }

/-- Closes the lane of a handle behind a barrier, and forgets the barriers that are passed. -/
def routeRetire (d : Delivery) (handle : HandleId) : Delivery :=
  let d := { d with draining := d.draining.filter (· ∉ d.passed) }
  let d := match d.active.get? handle with
    | none => d
    | some lane =>
      let (barrier, d) := { d with active := d.active.erase handle }.pushBarrier lane
      { d with draining := d.draining ++ barrier.toList }
  { d with drainingCount := d.draining.length }

/-- Makes a flush wait for the retired lanes and for what every open lane has now. -/
def routeFlush (d : Delivery) (id : FlushId) : Delivery :=
  let (barriers, d) := d.pushBarriers (d.active.toList.map Prod.snd)
  { d with
    waiting := d.waiting.insert id (d.draining ++ barriers)
    draining := []
    drainingCount := 0 }

/-- The router takes an item. -/
def take (d : Delivery) : RouterItem → Delivery
  | .deliver event callback => d.routeDeliver event callback
  | .retire handle => d.routeRetire handle
  | .flush id => d.routeFlush id

/-- The router ends. What it has not taken is lost, and nobody waits for it; lanes finish what they
have. -/
def halt (d : Delivery) : Delivery :=
  let flushes := d.inbox.filterMap fun | .flush id => some id | _ => none
  { d with
    router := .stopped
    inbox := []
    active := .empty
    draining := []
    resolved := flushes.foldl FinSet.add d.resolved }

/-- The router takes its next item, or ends if it was asked to. -/
def route? (d : Delivery) : Option Delivery :=
  match d.router, d.inbox with
  | .running, item :: rest => some ({ d with inbox := rest }.take item)
  | .stopping, _ => some d.halt
  | _, _ => none

/-! ## The lanes -/

/-- An idle lane calls its callback with its next event. -/
def begin? (d : Delivery) (id : LaneId) : Option Delivery := do
  let lane ← d.lanes.get? id
  match lane.state, lane.queue with
  | .idle, .event n :: rest =>
    some { d with lanes := d.lanes.insert id { lane with state := .busy n, queue := rest } }
  | _, _ => none

/-- An idle lane passes its next barrier. -/
def pass? (d : Delivery) (id : LaneId) : Option Delivery := do
  let lane ← d.lanes.get? id
  match lane.state, lane.queue with
  | .idle, .barrier b :: rest =>
    some { d with
      lanes := d.lanes.insert id { lane with queue := rest }
      passed := d.passed.add b }
  | _, _ => none

/-- The callback of a lane returns. One that dies takes its lane along: what is queued is lost, and
nobody waits for it. -/
def finish? (d : Delivery) (id : LaneId) (ending : Ending) : Option Delivery := do
  let lane ← d.lanes.get? id
  match lane.state, ending with
  | .busy n, .took =>
    some { d with
      lanes := d.lanes.insert id { lane with state := .idle }
      delivered := d.delivered + 1
      receipts := d.receipts ++ [⟨lane.handle, lane.callback, n⟩] }
  | .busy _, .failed =>
    some { d with
      lanes := d.lanes.insert id { lane with state := .idle }
      dropped := d.dropped + 1 }
  | .busy _, .died =>
    let barriers := lane.queue.filterMap fun | .barrier b => some b | .event _ => none
    some { d with
      lanes := d.lanes.insert id { lane with state := .dead, queue := [] }
      passed := barriers.foldl FinSet.add d.passed }
  | _, _ => none

/-- A flush finds all its barriers passed. -/
def resolve? (d : Delivery) (id : FlushId) : Option Delivery := do
  let barriers ← d.waiting.get? id
  if barriers.all (· ∈ d.passed) then
    some { d with waiting := d.waiting.erase id, resolved := d.resolved.add id }
  else none

/-- One step, if it is possible. -/
def step? (d : Delivery) : Action → Option Delivery
  | .enqueue event callback => some (d.enqueue event callback)
  | .retire handle => some (d.retire handle)
  | .flush => some d.flush
  | .stop => some d.stop
  | .route => d.route?
  | .begin lane => d.begin? lane
  | .finish lane ending => d.finish? lane ending
  | .pass lane => d.pass? lane
  | .resolve flush => d.resolve? flush

/-- A sequence of steps, if each is possible in turn. -/
def run? (d : Delivery) (actions : List Action) : Option Delivery := actions.foldlM step? d

end Delivery

end Coordination
