import Coordination.FinMap
import Coordination.Failure
import Coordination.Notification

/-!
# Open handles

A handle is a session's reference to a node. It says which notifications its owner wants and which
callback they go to.
-/

namespace Coordination

/-- Where the notifications of a handle go. -/
inductive Callback where
  /-- A callback inside the process, known by name. -/
  | process (name : String)
  /-- The client at the other end of a connection, which may not be its first. -/
  | connection (client : String) (serial : Nat)
  deriving DecidableEq

/-- An open reference of a session to a node. -/
structure Handle where
  session : SessionId
  node : NodeId
  interest : Interest
  callback : Callback
  deriving DecidableEq

/-- A handle in a log line. -/
def Handle.describe (id : HandleId) (h : Handle) : String :=
  "Handle \x7b id: HandleId(" ++ id.number.repr ++
    "), session: SessionId(" ++ h.session.number.repr ++
    "), node: NodeId(" ++ h.node.number.repr ++
    "), mask: EventMask(" ++ h.interest.bits.toNat.repr ++ ") \x7d"

/-- The open handles; identifiers are never reused. -/
structure HandleTable where
  handles : FinMap HandleId Handle
  next : HandleId

namespace HandleTable

/-- A table without handles. -/
def new : HandleTable := ⟨.empty, ⟨1⟩⟩

/-- The entry of a handle. -/
def get? (t : HandleTable) (id : HandleId) : Option Handle := t.handles.get? id

/-- The number of open handles. -/
def size (t : HandleTable) : Nat := t.handles.size

/-- Registers a handle under a fresh identifier. -/
def add (t : HandleTable) (h : Handle) : HandleId × HandleTable :=
  (t.next, ⟨t.handles.insert t.next h, t.next.next⟩)

/-- An open handle. -/
def get (t : HandleTable) (id : HandleId) : Except Failure Handle :=
  match t.get? id with
  | none => .error (.badHandle id)
  | some h => .ok h

/-- Closes an open handle and returns it. -/
def close (t : HandleTable) (id : HandleId) : Except Failure (Handle × HandleTable) := do
  let h ← t.get id
  return (h, { t with handles := t.handles.erase id })

end HandleTable

end Coordination
