import Coordination.Failure

/-!
# The lock of one node

A request is granted on the spot or waits its turn; nobody blocks. Waiters are served in order of
arrival: `promote` moves the longest stretch of the queue that is compatible with the holders, so
a shared request never overtakes an exclusive one. `release?` and `withdraw?` promote nobody, so
that the end of a session can release all its locks before anyone profits.
-/

namespace Coordination

/-- A handle that holds a lock, and its session. -/
structure Holder where
  session : SessionId
  handle : HandleId
  deriving DecidableEq

/-- A request that waits for a lock. -/
structure Waiter where
  session : SessionId
  handle : HandleId
  mode : LockMode
  deriving DecidableEq

/-- The holder a waiter becomes. -/
def Waiter.holder (w : Waiter) : Holder := ⟨w.session, w.handle⟩

/-- The lock of one node. `generation` counts the exclusive grants it has seen, without a bound: that
a counter of 64 bits overflows is left out. -/
structure LockState where
  mode : LockMode
  holders : List Holder
  waiters : List Waiter
  generation : Nat
  deriving DecidableEq

/-- How a request for a lock was met. -/
inductive LockStatus where
  | granted (generation : Nat)
  | queued
  deriving DecidableEq

namespace LockState

/-- A lock that nobody ever asked for. -/
def free : LockState := ⟨.none, [], [], 0⟩

/-- Whether anybody holds the lock. -/
def isHeld (l : LockState) : Bool := !l.holders.isEmpty

/-- Whether a handle holds the lock. -/
def isHolder (l : LockState) (handle : HandleId) : Bool := l.holders.any (·.handle = handle)

/-- Whether a handle waits for the lock. -/
def isWaiting (l : LockState) (handle : HandleId) : Bool := l.waiters.any (·.handle = handle)

/-- A handle is involved if it holds the lock or waits for it. -/
def involves (l : LockState) (handle : HandleId) : Bool := l.isHolder handle || l.isWaiting handle

/-- Whether a newcomer is served at once: it must not overtake a waiter of a shared lock. -/
def admits (l : LockState) (mode : LockMode) : Bool :=
  match l.mode with
  | .none => true
  | .shared => mode = .shared && l.waiters.isEmpty
  | .exclusive => false

/-- Whether the head of the queue may join the holders. -/
def fits (l : LockState) (mode : LockMode) : Bool :=
  match l.mode, mode with
  | .none, _ => true
  | .shared, .shared => true
  | _, _ => false

/-- Adds a holder; an exclusive grant opens a new generation. -/
def grant (l : LockState) (holder : Holder) (mode : LockMode) : LockState :=
  { l with
    mode
    holders := l.holders ++ [holder]
    generation := if mode = .exclusive then l.generation + 1 else l.generation }

/-- Adds a waiter at the end of the queue. -/
def queue (l : LockState) (w : Waiter) : LockState := { l with waiters := l.waiters ++ [w] }

/-- Takes a handle from the holders. -/
def release? (l : LockState) (handle : HandleId) : Option (Holder × LockState) :=
  (l.holders.find? (·.handle = handle)).map fun holder =>
    let holders := l.holders.eraseP (·.handle = handle)
    (holder, { l with mode := if holders.isEmpty then .none else l.mode, holders })

/-- Takes a handle from the queue. -/
def withdraw? (l : LockState) (handle : HandleId) : Option (Waiter × LockState) :=
  (l.waiters.find? (·.handle = handle)).map fun w =>
    (w, { l with waiters := l.waiters.eraseP (·.handle = handle) })

/-- Serves the waiters of a queue from its head while they fit; returns those served. -/
def serve (l : LockState) : List Waiter → List Waiter × LockState
  | [] => ([], { l with waiters := [] })
  | w :: rest =>
    if l.fits w.mode then
      let served := serve (l.grant w.holder w.mode) rest
      (w :: served.1, served.2)
    else ([], { l with waiters := w :: rest })

/-- Serves the waiters that are compatible with the holders, in order of arrival. -/
def promote (l : LockState) : List Waiter × LockState := l.serve l.waiters

/-- What is wrong with a lock between operations, if anything. -/
def violation? (l : LockState) : Option String :=
  if l.mode = .none ∧ l.holders ≠ [] then some "holders without mode"
  else if l.mode = .shared ∧ l.holders = [] then some "shared mode without holders"
  else if l.mode = .exclusive ∧ l.holders.length ≠ 1 then
    some "exclusive lock without exactly one holder"
  else if l.holders = [] ∧ l.waiters ≠ [] then some "waiters queued on an unheld lock"
  else if ¬ (l.holders.map Holder.handle ++ l.waiters.map Waiter.handle).Nodup then
    some "handle appears twice"
  else none

end LockState

end Coordination
