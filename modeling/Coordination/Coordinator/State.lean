import Coordination.Delivery.Command
import Coordination.Lease
import Coordination.Tree.Recovery

/-!
# The tables of the coordinator

The coordinator keeps four tables over one store: the namespace, the locks, the sessions and the
handles. An operation is a program in `Op`: it may change the tables, hand commands over to
delivery, and stop early, in which case what it has changed so far stays changed. So every
operation checks first, then writes to the store, then changes the tables.
-/

namespace Coordination

/-- The tables, the store below them, and the commands an operation has handed over so far. -/
structure State where
  tree : Tree
  locks : LockTable
  sessions : SessionTable
  handles : HandleTable
  store : Store
  outbox : List Command

/-- A program over the tables that may stop early. -/
abbrev Op := ExceptT Interruption (StateM State)

namespace Op

variable {α : Type}

/-- Stops with a failure. -/
def refuse (why : Failure) : Op α := throw (.refused why)

/-- Goes on with a value, or stops with a failure. -/
def ofExcept : Except Failure α → Op α
  | .ok a => pure a
  | .error why => refuse why

/-- Calls the store. -/
def store (call : Store → Except Interruption Store) : Op Unit := do
  match call (← get).store with
  | .ok store => modify ({ · with store })
  | .error e => throw e

end Op

namespace State

/-- Tables without locks, sessions and handles. -/
def new (tree : Tree) (terms : LeaseTerms) (epoch : Instant) (store : Store) : State :=
  ⟨tree, .empty, .new terms epoch, .new, store, []⟩

/-- Hands a command over to delivery. -/
def send (s : State) (c : Command) : State := { s with outbox := s.outbox ++ [c] }

/-- Tells the owner of an open handle what happened, if the handle is interested. -/
def tell (s : State) (handle : HandleId) (n : Notification) : State :=
  match s.handles.get? handle with
  | none => s
  | some h =>
    if h.interest.covers n.interest then s.send (.deliver ⟨handle, h.node, n⟩ h.callback) else s

/-- Tells all handles that are open on a node, in ascending order. -/
def tellAll (s : State) (node : NodeId) (n : Notification) : State :=
  match s.tree.get? node with
  | none => s
  | some found => found.handles.keys.foldl (fun s handle => s.tell handle n) s

/-- Notes in the record of its session that a handle holds a lock. -/
def noteHeld (s : State) (session : SessionId) (lock : HeldLock) : State :=
  { s with sessions := s.sessions.modify session fun r => { r with locks := r.locks.add lock } }

/-- Strikes that note out. -/
def noteReleased (s : State) (session : SessionId) (lock : HeldLock) : State :=
  { s with sessions := s.sessions.modify session fun r => { r with locks := r.locks.erase lock } }

/-- Notes and announces a lock that a waiter was granted. -/
def welcome (s : State) (g : Grant) : State :=
  (s.noteHeld g.waiter.session ⟨g.node, g.waiter.handle⟩).tell g.waiter.handle .lockAcquired

/-- Serves the waiters of a node. -/
def promote (s : State) (node : NodeId) : State :=
  let (grants, locks) := s.locks.promote node
  grants.foldl welcome { s with locks }

/-- Forgets a handle of a session. -/
def dropFromSession (s : State) (session : SessionId) (handle : HandleId) : State :=
  { s with
    sessions := s.sessions.modify session fun r => { r with handles := r.handles.erase handle } }

/-- Ends a handle whose node has been removed. -/
def dropStale (s : State) (handle : HandleId) : State :=
  match s.handles.close handle with
  | .error _ => s
  | .ok (h, handles) => ({ s with handles }.dropFromSession h.session handle).send (.retire handle)

/-- The path of a node that is ephemeral and that nobody uses: no handle is open on it, it has no
children, and its lock is free. -/
def idleEphemeral? (s : State) (node : NodeId) : Option String := do
  let n ← s.tree.get? node
  if n.ephemeral && n.handles.isEmpty && n.children.isEmpty && !s.locks.isHeld node then some n.path
  else none

end State

namespace Op

/-- Records contact from a live session. -/
def touch (session : SessionId) (now : Instant) : Op Unit := do
  let sessions ← ofExcept ((← get).sessions.touch session now)
  modify ({ · with sessions })

/-- Records contact from the caller, then finds the node of a handle of its own. -/
def nodeOf (caller : SessionId) (handle : HandleId) (now : Instant) : Op NodeId := do
  touch caller now
  let h ← ofExcept ((← get).handles.get handle)
  if h.session ≠ caller then refuse (.badHandle handle) else return h.node

/-- An existing node. Open handles refer to existing nodes only. -/
def node (id : NodeId) : Op Node := do
  match (← get).tree.get? id with
  | some n => return n
  | none => refuse (.corrupted ("handle refers to missing node " ++ id.number.repr))

/-- Writes the record of a persistent node with a change that is still to be made. -/
def persist (id : NodeId) (change : Record → Record) : Op Unit := do
  match (← get).tree.record? id with
  | none => return ()
  | some r => do
    let n ← node id
    store (·.put (Record.key n.path) (change r).encode)

/-- Creates a node, ahead of it its record, and tells the handles on the parent. -/
def createNode (path : String) (isDir ephemeral : Bool) : Op NodeId := do
  let _ ← ofExcept ((← get).tree.checkCreate path)
  if !ephemeral then store (·.put (Record.key path) (Record.mk isDir .empty).encode)
  let (id, tree) ← ofExcept ((← get).tree.create path isDir ephemeral)
  modify ({ · with tree })
  match tree.parent? id with
  | none => return id
  | some parent =>
    modify (·.tellAll parent (.childAdded (Path.name path)))
    return id

/-- Removes a node, ahead of it its record; ends the handles on it and tells those on the
parent. -/
def removeNode (path : String) : Op Unit := do
  let s ← get
  let id ← ofExcept (s.tree.checkRemove path s.locks)
  if (s.tree.record? id).isSome then store (·.delete (Record.key path))
  let ((_, n), tree) ← ofExcept (s.tree.remove path s.locks)
  modify fun s => { s with tree, locks := s.locks.erase id }
  modify fun s => n.handles.keys.foldl State.dropStale s
  match (← get).tree.lookup (Path.parent path) with
  | .error _ => return ()
  | .ok parent => modify (·.tellAll parent (.childRemoved (Path.name path)))

/-- Removes a node if it is idle and ephemeral, and goes on with its parent, for up to `n`
nodes. -/
def reapFrom : Nat → NodeId → Op Unit
  | 0, _ => return ()
  | n + 1, id => do
    match (← get).idleEphemeral? id with
    | none => return ()
    | some path =>
      removeNode path
      match (← get).tree.lookup (Path.parent path) with
      | .error _ => return ()
      | .ok parent => reapFrom n parent

/-- Removes a node if it is idle and ephemeral, then its parent if that is idle and ephemeral now,
and so on. No more nodes than the path has components can go. -/
def reap (id : NodeId) : Op Unit := do
  match (← get).tree.get? id with
  | none => return ()
  | some n => reapFrom (Path.depth n.path) id

/-- Ends a handle in every table; an idle ephemeral node goes with its last handle. -/
def detach (handle : HandleId) : Op Unit := do
  let (h, handles) ← ofExcept ((← get).handles.close handle)
  modify fun s => ({ s with handles }.dropFromSession h.session handle).send (.retire handle)
  modify fun s => { s with tree := s.tree.modify h.node (·.dropHandle handle) }
  reap h.node

/-- Refuses to go on with a lock that contradicts itself. -/
def checkLock (id : NodeId) : Op Unit := do
  ofExcept ((← get).locks.check id)

end Op

end Coordination
