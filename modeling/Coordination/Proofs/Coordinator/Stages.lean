import Coordination.Coordinator.Basic
import Coordination.Proofs.Coordinator.Program
import Coordination.Proofs.Tree.Shape

/-!
# The stages of an operation

What an operation does to the tables when nothing stops it, as functions on the tables: a handle
gives up a lock (`yield`), a node goes (`removed`), idle ephemeral nodes go with it (`reap`), a
handle ends (`detach`), a session ends (`teardown`). The laws here say which tables each stage
leaves alone.
-/

namespace Coordination.State

/-- Contact from a session is recorded. -/
def contacted (s : State) (id : SessionId) (now : Instant) : State :=
  { s with sessions := s.sessions.modify id (·.contact (s.sessions.millis now)) }

/-- The store has changed. -/
def withStore (s : State) (store : Store) : State := { s with store }

/-- A handle leaves the lock of a node. -/
def strip (s : State) (node : NodeId) (handle : HandleId) : State :=
  { s with locks := s.locks.strip node handle }

/-- A handle leaves the lock of its node, and is told if it held the lock. -/
def yield (s : State) (handle : HandleId) : State :=
  match s.handles.get? handle with
  | none => s
  | some h =>
    if s.locks.isHolder h.node handle then (s.strip h.node handle).tell handle .lockReleased
    else s.strip h.node handle

/-- The node of a handle if the handle holds its lock or waits for it. -/
def stake? (s : State) (handle : HandleId) : Option NodeId :=
  match s.handles.get? handle with
  | none => none
  | some h => if (s.locks.lock h.node).involves handle then some h.node else none

/-- Handles give up their locks one after another; returns the nodes concerned as well. -/
def surrendered (s : State) (touched : FinSet NodeId) : List HandleId → FinSet NodeId × State
  | [] => (touched, s)
  | handle :: rest =>
    (s.yield handle).surrendered ((s.stake? handle).elim touched touched.add) rest

/-- The notes of a session about its locks are struck out. -/
def clearNotes (s : State) (id : SessionId) : State :=
  { s with sessions := s.sessions.modify id ({ · with locks := .empty }) }

/-- A handle leaves the tables of handles, of its session and of its node. -/
def unseat (s : State) (handle : HandleId) (h : Handle) : State :=
  let handles := { s.handles with handles := s.handles.handles.erase handle }
  let left := ({ s with handles }.dropFromSession h.session handle).send (.retire handle)
  { left with tree := left.tree.modify h.node (·.dropHandle handle) }

/-- A node goes with its lock, the handles on it end, and those on its parent are told. -/
def removed (s : State) (id above : NodeId) (path : String) (seated : List HandleId) : State :=
  (seated.foldl dropStale
    { s with tree := s.tree.prune id above path, locks := s.locks.erase id }).tellAll above
      (.childRemoved (Path.name path))

/-- A node goes if it is idle and ephemeral, then its parent, and so on for up to `k` nodes. -/
def reapFrom (s : State) (id : NodeId) : Nat → State
  | 0 => s
  | k + 1 =>
    match s.idleEphemeral? id with
    | none => s
    | some path =>
      match s.tree.find? (Path.parent path) with
      | none => s
      | some above => (s.removed id above path []).reapFrom above k

/-- A node goes if it is idle and ephemeral, then its parent, and so on. -/
def reap (s : State) (id : NodeId) : State :=
  match s.tree.get? id with
  | none => s
  | some n => s.reapFrom id (Path.depth n.path)

/-- A handle ends; an idle ephemeral node goes with its last handle. -/
def detach (s : State) (handle : HandleId) : State :=
  match s.handles.get? handle with
  | none => s
  | some h => (s.unseat handle h).reap h.node

/-- The handles of a session in ascending order. -/
def handlesOf (s : State) (id : SessionId) : List HandleId :=
  match s.sessions.get? id with
  | none => []
  | some x => x.handles.keys

/-- A session is forgotten. -/
def forget (s : State) (id : SessionId) : State := { s with sessions := s.sessions.remove id }

/-- The handles of a session give up their locks, and the waiters of the nodes concerned are
served. -/
def relieved (s : State) (id : SessionId) : State :=
  let surrendered := s.surrendered .empty (s.handlesOf id)
  surrendered.1.keys.foldl promote (surrendered.2.clearNotes id)

/-- A session ends: its locks are given up, its handles end, and it is forgotten. -/
def teardown (s : State) (id : SessionId) : State :=
  ((s.handlesOf id).foldl detach (s.relieved id)).forget id

variable {s : State} {id above node : NodeId} {handle : HandleId} {session : SessionId}

/-- An open handle leaves the lock of its node, and is told if it held it. -/
lemma yield_of_get? {r : Handle} (found : s.handles.get? handle = some r) :
    s.yield handle = if s.locks.isHolder r.node handle then
      (s.strip r.node handle).tell handle .lockReleased else s.strip r.node handle := by
  rw [yield, found]

/-- An open handle has a stake in its node if it is involved in its lock. -/
lemma stake?_of_get? {r : Handle} (found : s.handles.get? handle = some r) :
    s.stake? handle =
      if (s.locks.lock r.node).involves handle then some r.node else none := by
  rw [stake?, found]

/-! ## What announcements leave alone -/

/-- Both have the same tables and the same store. -/
structure SameTables (s s' : State) : Prop where
  tree : s'.tree = s.tree
  locks : s'.locks = s.locks
  sessions : s'.sessions = s.sessions
  handles : s'.handles = s.handles
  store : s'.store = s.store

/-- The tables are the same as themselves. -/
lemma SameTables.refl (s : State) : s.SameTables s := ⟨rfl, rfl, rfl, rfl, rfl⟩

/-- Announcements may follow one another. -/
lemma SameTables.trans {s₁ s₂ s₃ : State} (h : s₁.SameTables s₂) (h' : s₂.SameTables s₃) :
    s₁.SameTables s₃ :=
  ⟨h'.tree.trans h.tree, h'.locks.trans h.locks, h'.sessions.trans h.sessions,
    h'.handles.trans h.handles, h'.store.trans h.store⟩

/-- Telling a handle changes no table. -/
lemma sameTables_tell (s : State) (handle : HandleId) (n : Notification) :
    s.SameTables (s.tell handle n) := by
  unfold tell
  split
  · exact .refl s
  · split
    · exact ⟨rfl, rfl, rfl, rfl, rfl⟩
    · exact .refl s

/-- A loop of announcements changes no table. -/
lemma sameTables_foldl {α : Type} {f : State → α → State} (step : ∀ (s : State) a, s.SameTables (f s a))
    (list : List α) : s.SameTables (list.foldl f s) := by
  induction list generalizing s with
  | nil => exact .refl s
  | cons a rest ih => exact (step s a).trans ih

/-- Telling all handles on a node changes no table. -/
lemma sameTables_tellAll (n : Notification) : s.SameTables (s.tellAll id n) := by
  unfold tellAll
  split
  · exact .refl s
  · exact sameTables_foldl (fun s h => s.sameTables_tell h n) _

end Coordination.State
