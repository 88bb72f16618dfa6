import Coordination.Lock.Table
import Coordination.Path
import Coordination.Tree.Record

/-!
# The namespace

Files and directories form a tree. Nodes are kept by identifier; an index finds them by path, and a
directory knows its children by name. `checkCreate` and `checkRemove` say whether a change is
possible, `create` and `remove` make it.
-/

namespace Coordination

/-- A file or directory. -/
structure Node where
  path : String
  /-- Only directories have children. -/
  isDir : Bool
  /-- An ephemeral node goes away once nobody uses it. -/
  ephemeral : Bool
  attrs : FinMap String Bytes
  /-- Names of the children. -/
  children : FinSet String
  /-- Handles open on the node. -/
  handles : FinSet HandleId
  deriving DecidableEq

namespace Node

/-- A node that nobody has used yet. -/
def new (path : String) (isDir ephemeral : Bool) : Node :=
  ⟨path, isDir, ephemeral, .empty, .empty, .empty⟩

/-- A child is listed. -/
def addChild (n : Node) (name : String) : Node := { n with children := n.children.add name }

/-- A child is no longer listed. -/
def dropChild (n : Node) (name : String) : Node := { n with children := n.children.erase name }

/-- A handle is listed. -/
def addHandle (n : Node) (h : HandleId) : Node := { n with handles := n.handles.add h }

/-- A handle is no longer listed. -/
def dropHandle (n : Node) (h : HandleId) : Node := { n with handles := n.handles.erase h }

/-- An attribute gets a value. -/
def setAttr (n : Node) (name : String) (value : Bytes) : Node :=
  { n with attrs := n.attrs.insert name value }

/-- An attribute is dropped. -/
def dropAttr (n : Node) (name : String) : Node := { n with attrs := n.attrs.erase name }

/-- The persistent part of a node. -/
def record (n : Node) : Record := ⟨n.isDir, n.attrs⟩

end Node

/-- The namespace. -/
structure Tree where
  nodes : FinMap NodeId Node
  /-- Finds nodes by path. -/
  index : FinMap String NodeId
  next : NodeId
  deriving DecidableEq

namespace Tree

/-- A tree that holds the root directory alone. -/
def new : Tree where
  nodes := FinMap.empty.insert NodeId.root (.new Path.root true false)
  index := FinMap.empty.insert Path.root NodeId.root
  next := NodeId.root.next

/-- The node of an identifier. -/
def get? (t : Tree) (id : NodeId) : Option Node := t.nodes.get? id

/-- The number of nodes. -/
def size (t : Tree) : Nat := t.nodes.size

/-- Changes a node, if it exists. -/
def modify (t : Tree) (id : NodeId) (f : Node → Node) : Tree :=
  { t with nodes := t.nodes.modify id f }

/-- The node at a path, which need not be valid. -/
def find? (t : Tree) (path : String) : Option NodeId := t.index.get? path

/-- The node at a path. -/
def lookup (t : Tree) (path : String) : Except Failure NodeId := do
  Path.validate path
  match t.find? path with
  | none => .error (.noSuchNode path)
  | some id => return id

/-- Names of the children of the node at a path. -/
def list (t : Tree) (path : String) : Except Failure (List String) := do
  let id ← t.lookup path
  match t.get? id with
  | none => .error (.noSuchNode path)
  | some n => return n.children.keys

/-- The directory in which a path could be created now. -/
def checkCreate (t : Tree) (path : String) : Except Failure NodeId := do
  Path.validate path
  if (t.find? path).isSome then .error (.nodeExists path)
  else
    match t.find? (Path.parent path) with
    | none => .error (.noSuchParent path)
    | some id =>
      match t.get? id with
      | none => .error (.noSuchParent path)
      | some parent => if parent.isDir then return id else .error (.notADirectory parent.path)

/-- Creates a node and enters it in its parent. -/
def create (t : Tree) (path : String) (isDir ephemeral : Bool) : Except Failure (NodeId × Tree) := do
  let parent ← t.checkCreate path
  return (t.next,
    { nodes := (t.nodes.modify parent (·.addChild (Path.name path))).insert t.next
        (.new path isDir ephemeral)
      index := t.index.insert path t.next
      next := t.next.next })

/-- The node at a path, if it could be removed now: it has no children and its lock is free. -/
def checkRemove (t : Tree) (path : String) (locks : LockTable) : Except Failure NodeId := do
  Path.validate path
  if path = Path.root then .error (.invalidPath path)
  else
    let id ← t.lookup path
    match t.get? id with
    | none => .error (.noSuchNode path)
    | some n =>
      if !n.children.isEmpty then .error (.nodeNotEmpty path)
      else if locks.isHeld id then .error (.lockHeld path)
      else return id

/-- Takes a node out of the tree and returns it. -/
def remove (t : Tree) (path : String) (locks : LockTable) :
    Except Failure ((NodeId × Node) × Tree) := do
  let id ← t.checkRemove path locks
  match t.get? id with
  | none => .error (.noSuchNode path)
  | some n =>
    let nodes := t.nodes.erase id
    let index := t.index.erase path
    let nodes := match index.get? (Path.parent path) with
      | none => nodes
      | some parent => nodes.modify parent (·.dropChild (Path.name path))
    return ((id, n), { t with nodes, index })

/-- The directory that holds a node; the root has none. -/
def parent? (t : Tree) (id : NodeId) : Option NodeId := do
  let n ← t.get? id
  if id = NodeId.root then none else t.find? (Path.parent n.path)

/-- The persistent part of a node; ephemeral nodes have none. -/
def record? (t : Tree) (id : NodeId) : Option Record := do
  let n ← t.get? id
  if n.ephemeral then none else some n.record

end Tree

end Coordination
