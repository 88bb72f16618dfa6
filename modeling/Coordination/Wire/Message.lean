import Coordination.Failure
import Coordination.Notification
import Coordination.Wire.Reader

/-!
# Messages

What clients and the coordinator say to each other, and how it is written: the tag of the variant,
then its fields in order. Every message has a writer and a reader.
-/

namespace Coordination.Wire

/-- What a client asks for. Sessions and handles are named by their numbers. -/
inductive Request where
  | createSession
  | keepalive (session : UInt64)
  | destroySession (session : UInt64)
  | open (session : UInt64) (path : String) (flags interest : UInt32)
  | close (session handle : UInt64)
  | mkdir (session : UInt64) (path : String)
  | delete (session : UInt64) (path : String)
  | exists (session : UInt64) (path : String)
  | readdir (session handle : UInt64)
  | attrSet (session handle : UInt64) (name : String) (value : List UInt8)
  | attrGet (session handle : UInt64) (name : String)
  | attrDel (session handle : UInt64) (name : String)
  | attrExists (session handle : UInt64) (name : String)
  | attrList (session handle : UInt64)
  | lock (session handle : UInt64) (mode : LockMode)
  | tryLock (session handle : UInt64) (mode : LockMode)
  | release (session handle : UInt64)
  | status
  deriving DecidableEq

/-- How a request for a lock was met. -/
inductive LockReply where
  | granted (generation : UInt64)
  | queued
  deriving DecidableEq

/-- What the coordinator answers. -/
inductive Response where
  | ok
  /-- A new session and the milliseconds its lease has left. -/
  | session (session leaseMillis : UInt64)
  | lease (leaseMillis : UInt64)
  | handle (handle : UInt64)
  | bool (value : Bool)
  | value (value : List UInt8)
  | names (names : List String)
  | lock (reply : LockReply)
  | generation (generation : UInt64)
  | status (nodes sessions handles : UInt64)
  | error (kind : FailureKind) (message : String)
  deriving DecidableEq

/-- The answer to a refused request. -/
def Response.ofFailure (f : Failure) : Response := .error f.kind f.message

/-- What the coordinator tells the owner of a handle. -/
structure EventMessage where
  handle : UInt64
  notification : Notification
  deriving DecidableEq

/-! ## Writing -/

/-- A word is written as a number. -/
def word64 (n : UInt64) : List UInt8 := varint n.toNat

/-- A half word is written as a number. -/
def word32 (n : UInt32) : List UInt8 := varint n.toNat

/-- A lock mode is written as a tag. -/
def lockMode : LockMode → List UInt8
  | .none => varint 0
  | .shared => varint 1
  | .exclusive => varint 2

/-- A kind of failure is written as its index. -/
def failureKind (k : FailureKind) : List UInt8 := varint k.index

/-- A notification is a tag, followed by a name if it has one. -/
def notification : Notification → List UInt8
  | .attrSet name => varint 0 ++ text name
  | .attrDel name => varint 1 ++ text name
  | .childAdded name => varint 2 ++ text name
  | .childRemoved name => varint 3 ++ text name
  | .lockAcquired => varint 4
  | .lockReleased => varint 5

/-- The reply to a request for a lock is a tag, followed by the generation of the grant. -/
def lockReply : LockReply → List UInt8
  | .granted generation => varint 0 ++ word64 generation
  | .queued => varint 1

/-- The payload of a request: its tag and its fields in order. -/
def Request.encode : Request → List UInt8
  | .createSession => varint 0
  | .keepalive session => varint 1 ++ word64 session
  | .destroySession session => varint 2 ++ word64 session
  | .open session path flags interest =>
    varint 3 ++ word64 session ++ text path ++ word32 flags ++ word32 interest
  | .close session handle => varint 4 ++ word64 session ++ word64 handle
  | .mkdir session path => varint 5 ++ word64 session ++ text path
  | .delete session path => varint 6 ++ word64 session ++ text path
  | .exists session path => varint 7 ++ word64 session ++ text path
  | .readdir session handle => varint 8 ++ word64 session ++ word64 handle
  | .attrSet session handle name value =>
    varint 9 ++ word64 session ++ word64 handle ++ text name ++ bytes value
  | .attrGet session handle name => varint 10 ++ word64 session ++ word64 handle ++ text name
  | .attrDel session handle name => varint 11 ++ word64 session ++ word64 handle ++ text name
  | .attrExists session handle name => varint 12 ++ word64 session ++ word64 handle ++ text name
  | .attrList session handle => varint 13 ++ word64 session ++ word64 handle
  | .lock session handle mode => varint 14 ++ word64 session ++ word64 handle ++ lockMode mode
  | .tryLock session handle mode => varint 15 ++ word64 session ++ word64 handle ++ lockMode mode
  | .release session handle => varint 16 ++ word64 session ++ word64 handle
  | .status => varint 17

/-- The payload of a response: its tag and its fields in order. -/
def Response.encode : Response → List UInt8
  | .ok => varint 0
  | .session id millis => varint 1 ++ word64 id ++ word64 millis
  | .lease millis => varint 2 ++ word64 millis
  | .handle id => varint 3 ++ word64 id
  | .bool b => varint 4 ++ Wire.bool b
  | .value v => varint 5 ++ bytes v
  | .names ns => varint 6 ++ list text ns
  | .lock reply => varint 7 ++ lockReply reply
  | .generation n => varint 8 ++ word64 n
  | .status nodes sessions handles =>
    varint 9 ++ word64 nodes ++ word64 sessions ++ word64 handles
  | .error kind message => varint 10 ++ failureKind kind ++ text message

/-- The payload of an event: the handle and the notification. -/
def EventMessage.encode (m : EventMessage) : List UInt8 :=
  word64 m.handle ++ Wire.notification m.notification

/-! ## Reading -/

namespace Reader

/-- Reads a lock mode. -/
def lockMode : Reader LockMode := do
  match ← tag 3 with
  | 0 => return .none
  | 1 => return .shared
  | _ => return .exclusive

/-- Reads a kind of failure. -/
def failureKind : Reader FailureKind := do
  return FailureKind.all.getD (← tag FailureKind.all.length) .corrupted

/-- Reads a notification. -/
def notification : Reader Notification := do
  match ← tag 6 with
  | 0 => return .attrSet (← text)
  | 1 => return .attrDel (← text)
  | 2 => return .childAdded (← text)
  | 3 => return .childRemoved (← text)
  | 4 => return .lockAcquired
  | _ => return .lockReleased

/-- Reads the reply to a request for a lock. -/
def lockReply : Reader LockReply := do
  match ← tag 2 with
  | 0 => return .granted (← word64)
  | _ => return .queued

/-- Reads a request. -/
def request : Reader Request := do
  match ← tag 18 with
  | 0 => return .createSession
  | 1 => return .keepalive (← word64)
  | 2 => return .destroySession (← word64)
  | 3 => return .open (← word64) (← text) (← word32) (← word32)
  | 4 => return .close (← word64) (← word64)
  | 5 => return .mkdir (← word64) (← text)
  | 6 => return .delete (← word64) (← text)
  | 7 => return .exists (← word64) (← text)
  | 8 => return .readdir (← word64) (← word64)
  | 9 => return .attrSet (← word64) (← word64) (← text) (← bytes)
  | 10 => return .attrGet (← word64) (← word64) (← text)
  | 11 => return .attrDel (← word64) (← word64) (← text)
  | 12 => return .attrExists (← word64) (← word64) (← text)
  | 13 => return .attrList (← word64) (← word64)
  | 14 => return .lock (← word64) (← word64) (← lockMode)
  | 15 => return .tryLock (← word64) (← word64) (← lockMode)
  | 16 => return .release (← word64) (← word64)
  | _ => return .status

/-- Reads a response. -/
def response : Reader Response := do
  match ← tag 11 with
  | 0 => return .ok
  | 1 => return .session (← word64) (← word64)
  | 2 => return .lease (← word64)
  | 3 => return .handle (← word64)
  | 4 => return .bool (← bool)
  | 5 => return .value (← bytes)
  | 6 => return .names (← list text)
  | 7 => return .lock (← lockReply)
  | 8 => return .generation (← word64)
  | 9 => return .status (← word64) (← word64) (← word64)
  | _ => return .error (← failureKind) (← text)

/-- Reads a message about an event. -/
def eventMessage : Reader EventMessage := do
  return ⟨← word64, ← notification⟩

end Reader

end Coordination.Wire
