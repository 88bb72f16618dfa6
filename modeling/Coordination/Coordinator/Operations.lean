import Coordination.Coordinator.State
import Coordination.OpenFlags

/-!
# The operations of the coordinator

Every operation in the name of a session records contact from it, even if it then fails. Operations
on a handle are refused unless the handle is the caller's own.
-/

namespace Coordination

/-- The lock of a node, as a client may see it. -/
abbrev LockView := LockState

/-- Sizes of the tables. -/
structure Sizes where
  nodes : Nat
  sessions : Nat
  handles : Nat
  deriving DecidableEq

namespace Op

/-! ## Sessions -/

/-- Creates a session and answers with its first deadline. -/
def createSession (now : Instant) : Op (SessionId × Instant) := do
  let (answer, sessions) := (← get).sessions.create now
  modify ({ · with sessions })
  return answer

/-- Renews the lease of a session and answers with its deadline. -/
def keepalive (session : SessionId) (now : Instant) : Op Instant := do
  let (deadline, sessions) ← ofExcept ((← get).sessions.renew session now)
  modify ({ · with sessions })
  return deadline

/-- Takes the locks of handles away without serving anyone; returns the nodes on which a handle
held the lock or waited for it. -/
def surrender (touched : FinSet NodeId) : List HandleId → Op (FinSet NodeId)
  | [] => return touched
  | handle :: rest => do
    let s ← get
    match s.handles.get? handle with
    | none => surrender touched rest
    | some h =>
      if s.locks.isHolder h.node handle then do
        let (_, locks) ← ofExcept (s.locks.release h.node handle)
        modify fun s => { s with locks }.tell handle .lockReleased
        surrender (touched.add h.node) rest
      else
        match s.locks.withdraw? h.node handle with
        | none => surrender touched rest
        | some (_, locks) => do
          modify ({ · with locks })
          surrender (touched.add h.node) rest

/-- Ends a session in three passes: all its locks are released before anyone profits, then the
waiters of other sessions are served, then its handles end. -/
def teardown (session : SessionId) : Op Unit := do
  let handles := match (← get).sessions.get? session with
    | none => []
    | some r => r.handles.keys
  let touched ← surrender .empty handles
  modify fun s => { s with sessions := s.sessions.modify session ({ · with locks := .empty }) }
  modify fun s => touched.keys.foldl State.promote s
  touched.keys.forM checkLock
  handles.forM detach
  modify fun s => { s with sessions := s.sessions.remove session }

/-- Ends a session by request of its owner. -/
def destroySession (session : SessionId) : Op Unit := do
  let sessions ← ofExcept ((← get).sessions.expire session)
  modify ({ · with sessions })
  teardown session

/-- Moves every session to its state at `now` and ends those that expire. -/
def expireSessions (now : Instant) : Op (List SessionId) := do
  let (expired, sessions) := (← get).sessions.tick now
  modify ({ · with sessions })
  expired.forM teardown
  return expired

/-! ## Nodes and handles -/

/-- The node that an open request refers to, created if the flags ask for it. -/
def resolve (path : String) (flags : OpenFlags) : Op NodeId := do
  match (← get).tree.lookup path with
  | .ok id =>
    if flags.meets .create && flags.meets .fresh then refuse (.nodeExists path) else return id
  | .error (.noSuchNode missing) =>
    if flags.meets .create then
      createNode path (flags.meets .directory) (flags.meets .ephemeral)
    else refuse (.noSuchNode missing)
  | .error e => refuse e

/-- Opens a handle on the node of a path, which is created if the flags say so. -/
def openHandle (session : SessionId) (path : String) (flags : OpenFlags) (interest : Interest)
    (callback : Callback) (now : Instant) : Op HandleId := do
  touch session now
  ofExcept (Path.validate path)
  let node ← resolve path flags
  let (handle, handles) := (← get).handles.add ⟨session, node, interest, callback⟩
  modify ({ · with handles })
  modify fun s => { s with tree := s.tree.modify node (·.addHandle handle) }
  modify fun s => { s with
    sessions := s.sessions.modify session fun r => { r with handles := r.handles.add handle } }
  return handle

/-- Closes a handle: it leaves the lock of its node, whose waiters are served, and goes. -/
def close (caller : SessionId) (handle : HandleId) (now : Instant) : Op Unit := do
  let node ← nodeOf caller handle now
  let s ← get
  if s.locks.isHolder node handle then
    let (_, locks) ← ofExcept (s.locks.release node handle)
    modify fun s => { s with locks }.noteReleased caller ⟨node, handle⟩
    modify (·.tell handle .lockReleased)
    modify (·.promote node)
  else
    match s.locks.withdraw? node handle with
    | none => pure ()
    | some (_, locks) => modify fun s => { s with locks }.promote node
  checkLock node
  detach handle

/-- Creates a directory. -/
def mkdir (session : SessionId) (path : String) (now : Instant) : Op Unit := do
  touch session now
  let _ ← createNode path true false

/-- Removes a node nobody depends on; handles on it end, and an ephemeral parent that is left idle
goes with it. -/
def delete (session : SessionId) (path : String) (now : Instant) : Op Unit := do
  touch session now
  ofExcept (Path.validate path)
  let parent := (← get).tree.lookup (Path.parent path)
  removeNode path
  match parent with
  | .error _ => return ()
  | .ok parent => reap parent

/-- Whether a path names an existing node; a text that is not a path names none. -/
def pathExists (session : SessionId) (path : String) (now : Instant) : Op Bool := do
  touch session now
  return Path.isValid path && ((← get).tree.find? path).isSome

/-- The names of the children of a node. -/
def readdir (caller : SessionId) (handle : HandleId) (now : Instant) : Op (List String) := do
  let n ← node (← nodeOf caller handle now)
  return n.children.keys

/-! ## Attributes -/

/-- Sets an attribute of a node. -/
def attrSet (caller : SessionId) (handle : HandleId) (name : String) (value : Bytes)
    (now : Instant) : Op Unit := do
  let id ← nodeOf caller handle now
  persist id fun r => { r with attrs := r.attrs.insert name value }
  modify fun s => { s with tree := s.tree.modify id (·.setAttr name value) }
  modify (·.tellAll id (.attrSet name))

/-- Deletes an attribute of a node that has it. -/
def attrDel (caller : SessionId) (handle : HandleId) (name : String) (now : Instant) :
    Op Unit := do
  let id ← nodeOf caller handle now
  if name ∉ (← node id).attrs then refuse (.noSuchAttr name)
  else
    persist id fun r => { r with attrs := r.attrs.erase name }
    modify fun s => { s with tree := s.tree.modify id (·.dropAttr name) }
    modify (·.tellAll id (.attrDel name))

/-- The value of an attribute of a node. -/
def attrGet (caller : SessionId) (handle : HandleId) (name : String) (now : Instant) :
    Op Bytes := do
  let n ← node (← nodeOf caller handle now)
  match n.attrs.get? name with
  | none => refuse (.noSuchAttr name)
  | some value => return value

/-- Whether a node has an attribute. -/
def attrExists (caller : SessionId) (handle : HandleId) (name : String) (now : Instant) :
    Op Bool := do
  let n ← node (← nodeOf caller handle now)
  return n.attrs.contains name

/-- The names of the attributes of a node. -/
def attrList (caller : SessionId) (handle : HandleId) (now : Instant) : Op (List String) := do
  let n ← node (← nodeOf caller handle now)
  return n.attrs.keys

/-! ## Locks -/

/-- Notes and announces a lock that was granted on the spot. -/
def granted (session : SessionId) (node : NodeId) (handle : HandleId) : Op Unit := do
  modify (·.noteHeld session ⟨node, handle⟩)
  modify (·.tell handle .lockAcquired)

/-- Requests the lock of a node, and waits for it if need be. -/
def lock (caller : SessionId) (handle : HandleId) (mode : LockMode) (now : Instant) :
    Op LockStatus := do
  let node ← nodeOf caller handle now
  let (result, locks) := (← get).locks.request node caller handle mode
  modify ({ · with locks })
  let status ← ofExcept result
  match status with
  | .granted _ => granted caller node handle
  | .queued => pure ()
  checkLock node
  return status

/-- Requests the lock of a node without waiting for it. -/
def tryLock (caller : SessionId) (handle : HandleId) (mode : LockMode) (now : Instant) :
    Op Nat := do
  let node ← nodeOf caller handle now
  let (result, locks) := (← get).locks.tryRequest node caller handle mode
  modify ({ · with locks })
  let generation ← ofExcept result
  granted caller node handle
  checkLock node
  return generation

/-- Gives the lock of a node back and serves the waiters. -/
def release (caller : SessionId) (handle : HandleId) (now : Instant) : Op Unit := do
  let node ← nodeOf caller handle now
  let (_, locks) ← ofExcept ((← get).locks.release node handle)
  modify fun s => { s with locks }.noteReleased caller ⟨node, handle⟩
  modify (·.tell handle .lockReleased)
  modify (·.promote node)
  checkLock node

/-- The lock of the node at a path. -/
def lockInfo (path : String) : Op LockView := do
  let s ← get
  return s.locks.lock (← ofExcept (s.tree.lookup path))

/-! ## The coordinator itself -/

/-- How many nodes, sessions and handles there are. -/
def sizes : Op Sizes := do
  let s ← get
  return ⟨s.tree.size, s.sessions.size, s.handles.size⟩

/-- Refuses to go on with tables that contradict themselves. -/
def checkLocks : Op Unit := do
  ofExcept (← get).locks.checkAll

end Op

end Coordination
