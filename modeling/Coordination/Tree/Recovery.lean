import Coordination.Tree.Basic

/-!
# Recovery

The persistent part of the namespace is rebuilt from the node records of a store. Records are
grafted onto a new tree in order of depth, so that parents come before children; a record whose
parent did not survive is an orphan, and all orphans are deleted from the store in one batch.
-/

namespace Coordination.Tree

/-- A stored record and the path it belongs to. -/
abbrev Stored := String × Record

/-- Reads a pair of the store whose key begins like the key of a record. -/
def readStored (pair : Bytes × Bytes) : Except Failure Stored :=
  match Text.Utf8.decode (pair.1.drop Record.keyStem.length) with
  | .error e => .error (.store e.message)
  | .ok path => do return (path, ← Record.decode pair.2)

/-- Parents before children, otherwise in the order of the store. -/
def byDepth (stored : List Stored) : List Stored :=
  stored.mergeSort fun a b => Path.depth a.1 ≤ Path.depth b.1

/-- Enters one record; answers whether it is an orphan. -/
def graft (t : Tree) (stored : Stored) : Except Failure (Bool × Tree) :=
  let (path, record) := stored
  if path = Path.root then
    .ok (false, t.modify NodeId.root ({ · with attrs := record.attrs }))
  else
    match t.create path record.isDir false with
    | .ok (id, t) => .ok (false, t.modify id ({ · with attrs := record.attrs }))
    | .error (.noSuchParent _) => .ok (true, t)
    | .error e => .error e

/-- Enters records one after another; returns the paths of the orphans. -/
def graftAll (t : Tree) : List Stored → Except Failure (List String × Tree)
  | [] => .ok ([], t)
  | stored :: rest => do
    let (isOrphan, t) ← t.graft stored
    let (orphans, t) ← t.graftAll rest
    return (if isOrphan then stored.1 :: orphans else orphans, t)

/-- The tree that the pairs of a store describe, and the paths of the orphans among them. -/
def ofStored (pairs : List (Bytes × Bytes)) : Except Failure (List String × Tree) := do
  new.graftAll (byDepth (← pairs.mapM readStored))

/-- Rebuilds the tree from a store and deletes the orphans. -/
def recover (s : Store) : Except Interruption (Tree × Store) := do
  let pairs ← s.scan Record.keyStem
  match ofStored pairs with
  | .error e => .error (.refused e)
  | .ok ([], t) => return (t, s)
  | .ok (orphans, t) => return (t, ← s.batch (orphans.map (Write.delete <| Record.key ·)))

end Coordination.Tree
