import Coordination.Endpoint.Server
import Coordination.Settings.Options

/-!
# The program

Reads the settings and serves the client at standard input and output, over a store that starts
empty, until either side hangs up. All that is decided is decided by `Server`.
-/

namespace Coordination

/-- Microseconds since a point of the system's clock, which counts nanoseconds. -/
def elapsed (since : Nat) : IO Instant := return ((← IO.monoNanosNow) - since) / 1000

/-- The bytes of a file, if it exists. -/
def readFile? (path : String) : IO (Option Bytes) := do
  try return some (← IO.FS.readBinFile path).toList
  catch _ => return none

/-- Passes bytes between the client and the server until the connection has ended. -/
partial def converse (client : String) (since : Nat) (input output : IO.FS.Stream) (s : Server) :
    IO Server := do
  let bytes ← input.read 1
  let now ← elapsed since
  let s := s.update (·.waitUntil now)
  let s := if bytes.isEmpty then s.close client else s.receive client bytes.toList
  let (answer, s) := s.take client
  output.write ⟨answer.toArray⟩
  output.flush
  if (s.connections.get? client).any Connection.isOpen then
    converse client since input output s
  else
    return s

/-- Serves one client; tells whether the service is still sound afterwards. -/
def serve (settings : Settings) (c : Coordinator) : IO Bool := do
  let client := "client"
  let since ← IO.monoNanosNow
  let service := (Service.start c 0 fun _ => .fails).startReaper settings.reaperInterval.toNat
  let s := (Server.start service settings.maxFrameLength.toNat true).connect client
  let s ← converse client since (← IO.getStdin) (← IO.getStdout) s
  return !s.service.coordinator.halted

end Coordination

open Coordination in
/-- Runs the program; a failure is told on standard error. -/
def main (args : List String) : IO UInt32 := do
  let fail (text : String) : IO UInt32 := do
    IO.eprintln text
    return 1
  let options ← match Options.ofArguments args with
    | .ok o => pure o
    | .error text => return ← fail text
  let bytes ← match options.file with
    | some path => readFile? path
    | none => pure none
  match options.settings bytes with
  | .error e => fail e.message
  | .ok settings =>
    match Coordinator.recover settings.terms 0 (.ofContents .empty) with
    | .error _ => fail "the store cannot be read"
    | .ok c =>
      if ← serve settings c then return 0
      else fail "the service halted after an internal invariant violation"
