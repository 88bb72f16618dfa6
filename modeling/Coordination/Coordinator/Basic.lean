import Coordination.Coordinator.Operations

/-!
# The coordinator

A `Coordinator` executes one call after another over its tables. `Coordinator.perform` says what a
call answers, what it leaves behind and which commands it hands over to delivery. A call that finds
the tables contradict themselves halts the coordinator; a store that dies under a call leaves its
tables unusable, and the next call halts it.
-/

namespace Coordination

/-- What a coordinator can be asked to do. -/
inductive Call where
  | createSession
  | keepalive (session : SessionId)
  | destroySession (session : SessionId)
  /-- Expires leases as of a time of the caller's choice. -/
  | expireSessions (as_of : Instant)
  | openHandle (session : SessionId) (path : String) (flags : OpenFlags) (interest : Interest)
      (callback : Callback)
  | close (session : SessionId) (handle : HandleId)
  | mkdir (session : SessionId) (path : String)
  | delete (session : SessionId) (path : String)
  | pathExists (session : SessionId) (path : String)
  | readdir (session : SessionId) (handle : HandleId)
  | attrSet (session : SessionId) (handle : HandleId) (name : String) (value : Bytes)
  | attrGet (session : SessionId) (handle : HandleId) (name : String)
  | attrDel (session : SessionId) (handle : HandleId) (name : String)
  | attrExists (session : SessionId) (handle : HandleId) (name : String)
  | attrList (session : SessionId) (handle : HandleId)
  | lock (session : SessionId) (handle : HandleId) (mode : LockMode)
  | tryLock (session : SessionId) (handle : HandleId) (mode : LockMode)
  | release (session : SessionId) (handle : HandleId)
  | lockInfo (path : String)
  | sizes
  | checkLocks
  deriving DecidableEq

/-- What a coordinator answers when it does as it is asked. -/
inductive Answer where
  | done
  | session (id : SessionId) (deadline : Instant)
  | deadline (deadline : Instant)
  | expired (sessions : List SessionId)
  | handle (id : HandleId)
  | truth (b : Bool)
  | value (bytes : Bytes)
  | names (names : List String)
  | lock (status : LockStatus)
  | generation (n : Nat)
  | lockView (l : LockView)
  | sizes (s : Sizes)
  deriving DecidableEq

/-- The operation that a call stands for. -/
def Call.op (now : Instant) : Call → Op Answer
  | .createSession => do
    let (id, deadline) ← Op.createSession now
    return .session id deadline
  | .keepalive session => .deadline <$> Op.keepalive session now
  | .destroySession session => do Op.destroySession session; return .done
  | .expireSessions as_of => .expired <$> Op.expireSessions as_of
  | .openHandle session path flags interest callback =>
    .handle <$> Op.openHandle session path flags interest callback now
  | .close session handle => do Op.close session handle now; return .done
  | .mkdir session path => do Op.mkdir session path now; return .done
  | .delete session path => do Op.delete session path now; return .done
  | .pathExists session path => .truth <$> Op.pathExists session path now
  | .readdir session handle => .names <$> Op.readdir session handle now
  | .attrSet session handle name value => do
    Op.attrSet session handle name value now
    return .done
  | .attrGet session handle name => .value <$> Op.attrGet session handle name now
  | .attrDel session handle name => do Op.attrDel session handle name now; return .done
  | .attrExists session handle name => .truth <$> Op.attrExists session handle name now
  | .attrList session handle => .names <$> Op.attrList session handle now
  | .lock session handle mode => .lock <$> Op.lock session handle mode now
  | .tryLock session handle mode => .generation <$> Op.tryLock session handle mode now
  | .release session handle => do Op.release session handle now; return .done
  | .lockInfo path => .lockView <$> Op.lockInfo path
  | .sizes => .sizes <$> Op.sizes
  | .checkLocks => do Op.checkLocks; return .done

/-- A coordinator between two calls. -/
structure Coordinator where
  state : State
  /-- It has stopped serving. -/
  halted : Bool
  /-- A call died inside the tables. -/
  poisoned : Bool

/-- What a call answers, what it leaves behind, and the commands it hands over to delivery. -/
structure Outcome (α : Type) where
  result : Except Interruption α
  coordinator : Coordinator
  commands : List Command

namespace Coordinator

/-- A coordinator over a tree. -/
def ofTree (tree : Tree) (terms : LeaseTerms) (now : Instant) (store : Store) : Coordinator :=
  ⟨.new tree terms now store, false, false⟩

/-- A coordinator with an empty namespace, whatever the store holds. -/
def new (terms : LeaseTerms) (now : Instant) (store : Store) : Coordinator :=
  ofTree .new terms now store

/-- A coordinator whose namespace is rebuilt from the store. -/
def recover (terms : LeaseTerms) (now : Instant) (store : Store) :
    Except Interruption Coordinator := do
  let (tree, store) ← Tree.recover store
  return ofTree tree terms now store

/-- A coordinator that has stopped serving. -/
def halt (c : Coordinator) : Coordinator := { c with halted := true }

/-- Executes an operation. What it hands over is handed over even if it fails, but lost if the
store dies under it. -/
def execute {α : Type} (c : Coordinator) (op : Op α) : Outcome α :=
  if c.halted then ⟨.error (.refused (.corrupted "master halted")), c, []⟩
  else if c.poisoned then ⟨.error (.refused (.corrupted "state lock poisoned")), c.halt, []⟩
  else
    let (result, s) := op.run c.state
    let c := { c with state := { s with outbox := [] } }
    match result with
    | .error .crashed => ⟨result, { c with poisoned := true }, []⟩
    | .error (.refused (.corrupted _)) => ⟨result, c.halt, s.outbox⟩
    | _ => ⟨result, c, s.outbox⟩

/-- Executes a call. -/
def perform (c : Coordinator) (now : Instant) (call : Call) : Outcome Answer :=
  c.execute (call.op now)

/-- The state of a session, if it still exists and the tables are usable. -/
def sessionState? (c : Coordinator) (session : SessionId) : Option SessionState :=
  if c.poisoned then none else c.state.sessions.state? session

end Coordinator

end Coordination
