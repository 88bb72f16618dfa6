import Coordination.Lock.State

/-!
# The locks of all nodes

A node gets an entry with the first request for its lock that names a mode, even if that request
then fails, and keeps it until the node is removed.
-/

namespace Coordination

/-- A waiter that was served. -/
structure Grant where
  node : NodeId
  waiter : Waiter
  deriving DecidableEq

/-- The locks that were ever asked for. -/
abbrev LockTable := FinMap NodeId LockState

namespace LockTable

/-- The lock of a node, free if nobody asked for it. -/
def lock (t : LockTable) (node : NodeId) : LockState := (t.get? node).getD .free

/-- Whether anybody holds the lock of a node. -/
def isHeld (t : LockTable) (node : NodeId) : Bool := (t.lock node).isHeld

/-- Whether a handle holds the lock of a node. -/
def isHolder (t : LockTable) (node : NodeId) (handle : HandleId) : Bool :=
  (t.lock node).isHolder handle

/-- Grants the lock, or puts the request at the end of the queue. -/
def request (t : LockTable) (node : NodeId) (session : SessionId) (handle : HandleId)
    (mode : LockMode) : Except Failure LockStatus × LockTable :=
  if mode = .none then (.error (.invalidLockMode mode), t)
  else
    let l := t.lock node
    if l.involves handle then (.error (.alreadyHolding handle), t.insert node l)
    else if l.admits mode then
      let l := l.grant ⟨session, handle⟩ mode
      (.ok (.granted l.generation), t.insert node l)
    else (.ok .queued, t.insert node (l.queue ⟨session, handle, mode⟩))

/-- Grants the lock, or refuses without waiting; answers with the generation. -/
def tryRequest (t : LockTable) (node : NodeId) (session : SessionId) (handle : HandleId)
    (mode : LockMode) : Except Failure Nat × LockTable :=
  if mode = .none then (.error (.invalidLockMode mode), t)
  else
    let l := t.lock node
    if l.involves handle then (.error (.alreadyHolding handle), t.insert node l)
    else if l.admits mode then
      let l := l.grant ⟨session, handle⟩ mode
      (.ok l.generation, t.insert node l)
    else (.error .busy, t.insert node l)

/-- Takes a handle from the holders of a node. -/
def release (t : LockTable) (node : NodeId) (handle : HandleId) :
    Except Failure (Holder × LockTable) :=
  match (t.get? node).bind (·.release? handle) with
  | none => .error (.notLockHolder handle)
  | some (holder, l) => .ok (holder, t.insert node l)

/-- Takes a handle from the queue of a node. -/
def withdraw? (t : LockTable) (node : NodeId) (handle : HandleId) : Option (Waiter × LockTable) :=
  ((t.get? node).bind (·.withdraw? handle)).map fun (w, l) => (w, t.insert node l)

/-- Serves the waiters of a node. -/
def promote (t : LockTable) (node : NodeId) : List Grant × LockTable :=
  match t.get? node with
  | none => ([], t)
  | some l =>
    let served := l.promote
    (served.1.map (Grant.mk node), t.insert node served.2)

/-- Refuses a node whose lock contradicts itself. -/
def check (t : LockTable) (node : NodeId) : Except Failure Unit :=
  match (t.get? node).bind LockState.violation? with
  | none => .ok ()
  | some what => .error (.corrupted ("node " ++ node.number.repr ++ ": " ++ what))

/-- Refuses a table with a lock that contradicts itself, naming the first such node. -/
def checkAll (t : LockTable) : Except Failure Unit := t.keys.forM t.check

end LockTable

end Coordination
