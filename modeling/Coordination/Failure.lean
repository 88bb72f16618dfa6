import Coordination.Identifier
import Coordination.Lock.Mode

/-!
# Failures

A failure says why a request was refused. Its wording and its wire code are fixed here, in
`Failure.message` and `FailureKind.code`, and nowhere else.
-/

namespace Coordination

/-- Why a request was refused, without the particulars. -/
inductive FailureKind where
  | protocol
  | badHandle
  | noSuchSession
  | noSuchNode
  | noSuchParent
  | nodeExists
  | nodeNotEmpty
  | lockHeld
  | alreadyHolding
  | notLockHolder
  | noSuchAttr
  | notADirectory
  | invalidPath
  | invalidLockMode
  | busy
  | store
  | corrupted
  deriving DecidableEq

namespace FailureKind

/-- Every kind, in the order of the wire. -/
def all : List FailureKind :=
  [.protocol, .badHandle, .noSuchSession, .noSuchNode, .noSuchParent, .nodeExists, .nodeNotEmpty,
    .lockHeld, .alreadyHolding, .notLockHolder, .noSuchAttr, .notADirectory, .invalidPath,
    .invalidLockMode, .busy, .store, .corrupted]

/-- The place of a kind on the wire, counted from zero. -/
def index : FailureKind → Nat
  | .protocol => 0
  | .badHandle => 1
  | .noSuchSession => 2
  | .noSuchNode => 3
  | .noSuchParent => 4
  | .nodeExists => 5
  | .nodeNotEmpty => 6
  | .lockHeld => 7
  | .alreadyHolding => 8
  | .notLockHolder => 9
  | .noSuchAttr => 10
  | .notADirectory => 11
  | .invalidPath => 12
  | .invalidLockMode => 13
  | .busy => 14
  | .store => 15
  | .corrupted => 16

/-- The published code of a kind, counted from one. -/
def code (k : FailureKind) : Nat := k.index + 1

/-- Every kind stands at its index. -/
theorem all_index (k : FailureKind) : all[k.index]? = some k := by
  cases k <;> rfl

end FailureKind

/-- Why a request was refused. -/
inductive Failure where
  /-- The request could not be read. -/
  | protocol (detail : String)
  /-- The handle is unknown, closed, or not the caller's. -/
  | badHandle (handle : HandleId)
  /-- The session is unknown or has expired. -/
  | noSuchSession (session : SessionId)
  | noSuchNode (path : String)
  | noSuchParent (path : String)
  | nodeExists (path : String)
  | nodeNotEmpty (path : String)
  | lockHeld (path : String)
  /-- The handle already holds the lock of its node or waits for it. -/
  | alreadyHolding (handle : HandleId)
  | notLockHolder (handle : HandleId)
  | noSuchAttr (name : String)
  /-- Children exist only below directories. -/
  | notADirectory (path : String)
  | invalidPath (path : String)
  /-- A lock may only be asked for in a mode that holds it. -/
  | invalidLockMode (mode : LockMode)
  /-- The lock could not be granted without waiting. -/
  | busy
  /-- The store refused. -/
  | store (detail : String)
  /-- The tables contradict each other; no further request is served. -/
  | corrupted (detail : String)
  deriving DecidableEq

namespace Failure

/-- The kind of a failure. -/
def kind : Failure → FailureKind
  | .protocol _ => .protocol
  | .badHandle _ => .badHandle
  | .noSuchSession _ => .noSuchSession
  | .noSuchNode _ => .noSuchNode
  | .noSuchParent _ => .noSuchParent
  | .nodeExists _ => .nodeExists
  | .nodeNotEmpty _ => .nodeNotEmpty
  | .lockHeld _ => .lockHeld
  | .alreadyHolding _ => .alreadyHolding
  | .notLockHolder _ => .notLockHolder
  | .noSuchAttr _ => .noSuchAttr
  | .notADirectory _ => .notADirectory
  | .invalidPath _ => .invalidPath
  | .invalidLockMode _ => .invalidLockMode
  | .busy => .busy
  | .store _ => .store
  | .corrupted _ => .corrupted

/-- The text a client reads. -/
def message : Failure → String
  | .protocol detail => "protocol error: " ++ detail
  | .badHandle handle => "bad handle " ++ handle.number.repr
  | .noSuchSession session => "no such session " ++ session.number.repr
  | .noSuchNode path => "node '" ++ path ++ "' not found"
  | .noSuchParent path => "parent of '" ++ path ++ "' not found"
  | .nodeExists path => "node '" ++ path ++ "' already exists"
  | .nodeNotEmpty path => "node '" ++ path ++ "' is not empty"
  | .lockHeld path => "lock held on '" ++ path ++ "'"
  | .alreadyHolding handle => "handle " ++ handle.number.repr ++ " already holding or waiting for lock"
  | .notLockHolder handle => "handle " ++ handle.number.repr ++ " is not a lock holder"
  | .noSuchAttr name => "attribute '" ++ name ++ "' not found"
  | .notADirectory path => "'" ++ path ++ "' is not a directory"
  | .invalidPath path => "invalid path '" ++ path ++ "'"
  | .invalidLockMode mode => "invalid lock mode " ++ mode.word
  | .busy => "lock busy"
  | .store detail => "store error: " ++ detail
  | .corrupted detail => "master state corrupted: " ++ detail

end Failure

end Coordination
