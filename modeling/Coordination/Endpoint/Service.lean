import Coordination.Delivery.Schedule
import Coordination.Endpoint.FrontDoor

/-!
# The service

A service runs a coordinator and the delivery of its events on one clock. After every call, all
deliveries happen that need no waiting. A reaper expires leases at fixed intervals until it is
stopped or the coordinator halts.
-/

namespace Coordination

/-- Expires leases every so many milliseconds, next at a certain time. -/
structure Reaper where
  period : Nat
  next : Instant
  deriving DecidableEq

/-- A coordinator at work. -/
structure Service where
  coordinator : Coordinator
  schedule : Schedule
  clock : Instant
  reaper : Option Reaper
  /-- Connections that are closed; their events are dropped. -/
  closed : List Callback
  /-- How callbacks inside the process behave. -/
  process : String → Behaviour

namespace Service

/-- A coordinator that starts to work. -/
def start (c : Coordinator) (clock : Instant) (process : String → Behaviour) : Service :=
  ⟨c, .new, clock, none, [], process⟩

/-- A connection takes its events as long as it is open. -/
def behaviour (s : Service) : Callback → Behaviour
  | .process name => s.process name
  | .connection client serial =>
    if .connection client serial ∈ s.closed then .fails else .takes 0

/-- Lets everything be delivered that needs no waiting. -/
def settle (s : Service) : Service := { s with schedule := s.schedule.settle s.behaviour }

/-- Keeps what an operation leaves behind and queues what it hands over. -/
def absorb {α : Type} (s : Service) (o : Outcome α) : Service :=
  { s with
    coordinator := o.coordinator
    schedule := { s.schedule with
      delivery := o.commands.foldl Delivery.accept s.schedule.delivery } }

/-- Keeps what an operation leaves behind and delivers what it hands over. -/
def conclude {α : Type} (s : Service) (o : Outcome α) : Except Interruption α × Service :=
  (o.result, (s.absorb o).settle)

/-- Executes a call now. -/
def perform (s : Service) (call : Call) : Except Interruption Answer × Service :=
  s.conclude (s.coordinator.perform s.clock call)

/-- Answers a frame now. -/
def answerFrame (s : Service) (callback : Callback) (f : Wire.Frame) :
    Except Interruption Wire.Frame × Service :=
  s.conclude (s.coordinator.answerFrame s.clock callback f)

/-- Starts over from the store, on the same clock. If that fails, nothing changes. -/
def restart (s : Service) : Except Interruption Unit × Service :=
  let state := s.coordinator.state
  match Coordinator.recover state.sessions.terms s.clock state.store with
  | .error e => (.error e, s)
  | .ok c => (.ok (), { s with coordinator := c, schedule := .new, reaper := none })

/-- Sets or lifts a fault of the store. -/
def setFault (s : Service) (call : StoreCall) (fault : Option Fault) : Service :=
  let state := s.coordinator.state
  { s with
    coordinator := { s.coordinator with
      state := { state with store := state.store.setFault call fault } } }

/-- Closes a connection. -/
def closeConnection (s : Service) (callback : Callback) : Service :=
  { s with closed := callback :: s.closed }

/-! ## Time -/

/-- Expires leases, and sets the time of the next round unless the coordinator has failed. -/
def reapOnce (s : Service) (r : Reaper) : Service :=
  match s.perform (.expireSessions s.clock) with
  | (.ok _, s) => { s with reaper := some { r with next := r.next + milliseconds r.period } }
  | (.error _, s) => { s with reaper := none }

/-- Lets up to `n` rounds of the reaper pass that are due by `stop`, each at its time. -/
def catchUp (stop : Instant) (s : Service) : Nat → Service
  | 0 => s
  | n + 1 =>
    match s.reaper with
    | none => s
    | some r =>
      if r.next ≤ stop then
        (reapOnce { s with clock := max s.clock r.next } r).catchUp stop n
      else s

/-- The number of rounds that are due by `stop`, at most. -/
def rounds (stop : Instant) (r : Reaper) : Nat := (stop - r.next).toNat / (1000 * r.period) + 1

/-- Moves the clock forward, past whatever is due on the way. -/
def waitUntil (s : Service) (stop : Instant) : Service :=
  let s := s.catchUp stop ((s.reaper.map (rounds stop)).getD 0)
  let s := { s with clock := max s.clock stop }
  { s with schedule := s.schedule.waitUntil s.behaviour (s.clock.toNat / 1000) }.settle

/-- Starts a reaper, whose first round is due now. Without a period there is none. -/
def startReaper (s : Service) (period : Nat) : Service :=
  if period = 0 then { s with reaper := none }
  else { s with reaper := some ⟨period, s.clock⟩ }.waitUntil s.clock

/-- Stops expiring sessions in the background. -/
def stopReaper (s : Service) : Service := { s with reaper := none }

end Service

end Coordination
