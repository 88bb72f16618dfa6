import Coordination.Endpoint.Service

/-!
# The server

A server runs a service for clients that are connected by byte streams. Whole frames are taken off
the front of what a client has sent and answered in order; then the events that are due are
delivered, and those of the client's handles follow the answers. A stream that breaks, a frame that
is too long to be written and a client that hangs up each end their connection, and a service that
has failed ends all of them.
-/

namespace Coordination

/-- The stream between the server and one client. -/
structure Connection where
  /-- Tells the connections of a client apart. -/
  serial : Nat
  isOpen : Bool
  /-- What the client has sent and no frame has been taken from. -/
  unread : Bytes
  /-- What the client has been sent, and has not taken yet. -/
  unsent : Bytes
  deriving DecidableEq

/-- A service and its clients, by name. -/
structure Server where
  service : Service
  /-- The most bytes that the payload of a frame may have, either way. -/
  maxFrameLength : Nat
  /-- Whether clients find the server; without a network none does. -/
  isReachable : Bool
  /-- Whether new connections are accepted. -/
  isServing : Bool
  connections : FinMap String Connection
  /-- The number of connections ever made. -/
  serial : Nat
  /-- The number of deliveries whose events have been written. -/
  written : Nat

namespace Server

/-- A server without clients. -/
def start (service : Service) (maxFrameLength : Nat) (isReachable : Bool) : Server :=
  ⟨service, maxFrameLength, isReachable, true, .empty, 0, 0⟩

/-- Changes the connection of a client, if there is one that is open. -/
def modify (s : Server) (client : String) (f : Connection → Connection) : Server :=
  match s.connections.get? client with
  | some c =>
    if c.isOpen then { s with connections := s.connections.insert client (f c) } else s
  | none => s

/-! ## Ending connections -/

/-- Ends the connection of a client. Events of its handles are dropped from now on. -/
def close (s : Server) (client : String) : Server :=
  match s.connections.get? client with
  | some c =>
    { s.modify client ({ · with isOpen := false, unread := [] }) with
      service := s.service.closeConnection (.connection client c.serial) }
  | none => s

/-- Accepts no more connections, and ends those that are open. -/
def shutdown (s : Server) : Server := s.connections.keys.foldl close { s with isServing := false }

/-! ## Writing -/

/-- Writes a frame to a client. One that is too long ends the connection. -/
def write (s : Server) (client : String) (f : Wire.Frame) : Server :=
  match f.encode s.maxFrameLength with
  | .ok bytes => s.modify client fun c => { c with unsent := c.unsent ++ bytes }
  | .error _ => s.close client

/-- Writes an event to the connection through which its handle was opened. -/
def writeEvent (s : Server) (r : Receipt) : Server :=
  match r.callback with
  | .process _ => s
  | .connection client serial =>
    if (s.connections.get? client).any (·.serial = serial) then
      s.write client (.ofEvent ⟨.ofNat r.handle.number, r.notification⟩)
    else s

/-- Writes the events that have been delivered since the last time. -/
def writeEvents (s : Server) : Server :=
  let receipts := s.service.schedule.delivery.receipts
  (receipts.drop s.written).foldl writeEvent { s with written := receipts.length }

/-- Changes the service and writes the events that come of it. -/
def update (s : Server) (f : Service → Service) : Server :=
  writeEvents { s with service := f s.service }

/-! ## Clients -/

/-- A client connects, and leaves the connection it had. The new one is closed from the beginning
unless the server accepts it. -/
def connect (s : Server) (client : String) : Server :=
  let s := s.close client
  let connection : Connection := ⟨s.serial, s.isReachable && s.isServing, [], []⟩
  { s with connections := s.connections.insert client connection, serial := s.serial + 1 }

/-- Answers frames one after the other, and stops behind one that leaves the coordinator failed or
dead. Answers the responses, and whether all frames were answered. -/
def answerAll (callback : Callback) (s : Service) :
    List Wire.Frame → List Wire.Frame × Bool × Service
  | [] => ([], true, s)
  | f :: frames =>
    let outcome := s.coordinator.answerFrame s.clock callback f
    let s := s.absorb outcome
    match outcome.result with
    | .error _ => ([], false, s)
    | .ok response =>
      if s.coordinator.halted then ([response], false, s)
      else
        let (responses, isComplete, s) := answerAll callback s frames
        (response :: responses, isComplete, s)

/-- Takes bytes that a client has sent. A connection whose bytes cannot be frames ends once the
frames before them are answered. -/
def receive (s : Server) (client : String) (bytes : Bytes) : Server :=
  match s.connections.get? client with
  | none => s
  | some c =>
    if c.isOpen then
      let (frames, failure, rest) := Wire.Frame.scanAll s.maxFrameLength (c.unread ++ bytes)
      let (responses, isComplete, service) :=
        answerAll (.connection client c.serial) s.service frames
      let s := { s with service }.modify client ({ · with unread := rest })
      let s := responses.foldl (·.write client ·) s
      let s := if isComplete && failure.isNone then s else s.close client
      let s := s.update .settle
      if s.service.coordinator.halted && !isComplete then s.shutdown else s
    else s

/-- What a client has been sent since it last took it. -/
def take (s : Server) (client : String) : Bytes × Server :=
  match s.connections.get? client with
  | none => ([], s)
  | some c =>
    (c.unsent, { s with connections := s.connections.insert client { c with unsent := [] } })

end Server

end Coordination
