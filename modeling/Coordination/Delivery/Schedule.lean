import Coordination.Delivery.Router

/-!
# Delivery on a clock

Delivery is driven along one schedule. Callbacks that are due return, the one called first before
the others; then the router takes what is queued; then the lanes go on in the order they were made.
Nothing moves the clock but waiting, and before it moves, all is done that can be done. How a
callback behaves, and how long it takes, is told by a `Behaviour`; every move of the schedule is a
step of `Delivery.step?`.
-/

namespace Coordination

/-- What a callback does with a notification. -/
inductive Behaviour where
  /-- It takes the notification after so many milliseconds. -/
  | takes (millis : Nat)
  | fails
  | dies
  deriving DecidableEq

/-- Delivery at a point in time, in milliseconds. -/
structure Schedule where
  delivery : Delivery
  clock : Nat
  /-- The lanes inside callbacks that take time, in the order of the calls, and when these return. -/
  due : List (LaneId × Nat)

namespace Schedule

/-- A schedule on which nothing has happened. -/
def new : Schedule := ⟨.new, 0, []⟩

/-- Makes a step if it is possible. -/
def perform (s : Schedule) (a : Action) : Schedule :=
  { s with delivery := (s.delivery.step? a).getD s.delivery }

/-- So many steps of the same kind. -/
def performMany (s : Schedule) (a : Action) : Nat → Schedule
  | 0 => s
  | n + 1 => (s.perform a).performMany a n

/-- The lane calls its callback, which returns at once or when it is due. -/
def call (behaviour : Callback → Behaviour) (s : Schedule) (id : LaneId) (lane : Lane) : Schedule :=
  let s := s.perform (.begin id)
  match behaviour lane.callback with
  | .takes 0 => s.perform (.finish id .took)
  | .takes (n + 1) => { s with due := s.due ++ [(id, s.clock + (n + 1))] }
  | .fails => s.perform (.finish id .failed)
  | .dies => s.perform (.finish id .died)

/-- Works off up to `n` items of a lane's queue, as far as it gets without waiting. -/
def workOff (behaviour : Callback → Behaviour) (id : LaneId) (s : Schedule) : Nat → Schedule
  | 0 => s
  | n + 1 =>
    match s.delivery.lanes.get? id with
    | none => s
    | some lane =>
      match lane.state, lane.queue with
      | .idle, .event _ :: _ => (s.call behaviour id lane).workOff behaviour id n
      | .idle, .barrier _ :: _ => (s.perform (.pass id)).workOff behaviour id n
      | _, _ => s

/-- Works off a lane's queue, as far as it gets without waiting. -/
def runLane (behaviour : Callback → Behaviour) (s : Schedule) (id : LaneId) : Schedule :=
  s.workOff behaviour id (((s.delivery.lanes.get? id).map (·.queue.length)).getD 0)

/-- The callback of a lane returns, and the lane goes on. -/
def resume (behaviour : Callback → Behaviour) (s : Schedule) (id : LaneId) : Schedule :=
  (s.perform (.finish id .took)).runLane behaviour id

/-- The callbacks that are due return, in the order they were called. -/
def returnDue (behaviour : Callback → Behaviour) (s : Schedule) : Schedule :=
  let (due, rest) := s.due.partition (·.2 ≤ s.clock)
  (due.map Prod.fst).foldl (resume behaviour) { s with due := rest }

/-- Lets everything happen that can happen without moving the clock. The router has one move for
each item it may take, and one to end. -/
def settle (behaviour : Callback → Behaviour) (s : Schedule) : Schedule :=
  let s := s.returnDue behaviour
  let s := s.performMany .route (s.delivery.inbox.length + 1)
  let s := s.delivery.lanes.keys.foldl (runLane behaviour) s
  s.delivery.waiting.keys.foldl (fun s id => s.perform (.resolve id)) s

/-- The number of callbacks that can still return, at most. -/
def pending (s : Schedule) : Nat :=
  s.delivery.lanes.toList.foldl (fun n b => n + b.2.queue.length + 1) 0

/-- The next time at which a callback returns. -/
def nextDue? (s : Schedule) : Option Nat := (s.due.map Prod.snd).min?

/-- Lets up to `n` times pass at which callbacks return before `stop`. -/
def catchUp (behaviour : Callback → Behaviour) (stop : Nat) (s : Schedule) : Nat → Schedule
  | 0 => s
  | n + 1 =>
    match s.nextDue? with
    | none => s
    | some t =>
      if t < stop then (({ s with clock := t } : Schedule).settle behaviour).catchUp behaviour stop n
      else s

/-- Waits until a point in time. What is due just then is still to be done. -/
def waitUntil (behaviour : Callback → Behaviour) (s : Schedule) (stop : Nat) : Schedule :=
  if s.clock < stop then
    let s := s.settle behaviour
    { s.catchUp behaviour stop s.pending with clock := stop }
  else s

/-- Waits until a flush is resolved, for up to `n` times at which callbacks return. -/
def awaitFlush (behaviour : Callback → Behaviour) (id : FlushId) (s : Schedule) : Nat → Schedule
  | 0 => s
  | n + 1 =>
    if id ∈ s.delivery.resolved then s
    else
      match s.nextDue? with
      | none => s
      | some t => (({ s with clock := t } : Schedule).settle behaviour).awaitFlush behaviour id n

/-- Flushes, and waits for it. -/
def flush (behaviour : Callback → Behaviour) (s : Schedule) : Schedule :=
  let id := s.delivery.nextFlush
  let s := s.perform .flush
  if id ∈ s.delivery.resolved then s
  else
    let s := s.settle behaviour
    s.awaitFlush behaviour id s.pending

end Schedule

end Coordination
