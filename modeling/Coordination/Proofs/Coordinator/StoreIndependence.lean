import Coordination.Proofs.Coordinator.Effects

/-!
# Stages that do not look at the store

The end of a session makes no call to the store: every stage of it commutes with a change of the
store.
-/

namespace Coordination.State

variable {s : State} {id above : NodeId} {handle : HandleId} {session : SessionId} {path : String}

/-- A function on the tables that neither looks at the store nor changes it. -/
def Blind (f : State → State) : Prop := ∀ s st, f (s.withStore st) = (f s).withStore st

/-- Two such functions one after the other. -/
lemma Blind.comp {f g : State → State} (hf : Blind f) (hg : Blind g) : Blind fun s => g (f s) := by
  intro s st
  exact (congrArg g (hf s st)).trans (hg (f s) st)

/-- Such functions in a loop. -/
lemma Blind.foldl {α : Type} {f : State → α → State} (each : ∀ a, Blind (f · a)) (list : List α) :
    Blind (list.foldl f ·) := by
  induction list with
  | nil => exact fun _ _ => rfl
  | cons a rest ih => exact (each a).comp ih

/-- Telling a handle does not concern the store. -/
lemma blind_tell (handle : HandleId) (n : Notification) : Blind (tell · handle n) := by
  intro s st
  show tell (s.withStore st) handle n = (s.tell handle n).withStore st
  have found : (s.withStore st).handles.get? handle = s.handles.get? handle := rfl
  rw [tell, tell, found]
  cases s.handles.get? handle with
  | none => rfl
  | some r =>
    dsimp only
    split <;> rfl

/-- Telling all handles on a node does not concern the store. -/
lemma blind_tellAll (id : NodeId) (n : Notification) : Blind (tellAll · id n) := by
  intro s st
  show tellAll (s.withStore st) id n = (s.tellAll id n).withStore st
  have found : (s.withStore st).tree.get? id = s.tree.get? id := rfl
  rw [tellAll, tellAll, found]
  cases s.tree.get? id with
  | none => rfl
  | some m => exact Blind.foldl (fun h => blind_tell h n) m.handles.keys s st

/-! ## Locks -/

/-- A handle gives up its lock without the store. -/
lemma blind_yield (handle : HandleId) : Blind (yield · handle) := by
  intro s st
  show yield (s.withStore st) handle = (s.yield handle).withStore st
  have found : (s.withStore st).handles.get? handle = s.handles.get? handle := rfl
  rw [yield, yield, found]
  cases s.handles.get? handle with
  | none => rfl
  | some r =>
    dsimp only
    have held : (s.withStore st).locks.isHolder r.node handle = s.locks.isHolder r.node handle := rfl
    rw [held]
    split
    · exact blind_tell handle .lockReleased (s.strip r.node handle) st
    · rfl

/-- Handles give up their locks in the same way over every store. -/
lemma surrendered_withStore (touched : FinSet NodeId) (list : List HandleId) (st : Store) :
    (s.withStore st).surrendered touched list =
      ((s.surrendered touched list).1, (s.surrendered touched list).2.withStore st) := by
  induction list generalizing s touched with
  | nil => rfl
  | cons h rest ih =>
    have stake : (s.withStore st).stake? h = s.stake? h := rfl
    have yield : (s.withStore st).yield h = (s.yield h).withStore st := blind_yield h s st
    rw [surrendered, stake, yield, ih]
    rfl

/-- A grant is noted and announced without the store. -/
lemma blind_welcome (g : Grant) : Blind (welcome · g) :=
  fun s st => blind_tell g.waiter.handle .lockAcquired
    (s.noteHeld g.waiter.session ⟨g.node, g.waiter.handle⟩) st

/-- Waiters are served without the store. -/
lemma blind_promote (id : NodeId) : Blind (promote · id) :=
  fun s st => Blind.foldl blind_welcome (s.locks.promote id).1
    { s with locks := (s.locks.promote id).2 } st

/-- A session lets go of its locks without the store. -/
lemma blind_relieved (session : SessionId) : Blind (relieved · session) := by
  intro s st
  have handles : (s.withStore st).handlesOf session = s.handlesOf session := rfl
  show relieved (s.withStore st) session = (s.relieved session).withStore st
  rw [relieved, handles, surrendered_withStore]
  exact Blind.foldl blind_promote _ ((s.surrendered .empty (s.handlesOf session)).2.clearNotes
    session) st

/-! ## Handles and nodes -/

/-- A stale handle goes without the store. -/
lemma blind_dropStale (handle : HandleId) : Blind (dropStale · handle) := by
  intro s st
  show dropStale (s.withStore st) handle = (s.dropStale handle).withStore st
  have closed : (s.withStore st).handles.close handle = s.handles.close handle := rfl
  rw [dropStale, dropStale, closed]
  cases s.handles.close handle <;> rfl

/-- A node is taken out of the tables without the store. -/
lemma blind_removed (id above : NodeId) (path : String) (seated : List HandleId) :
    Blind (removed · id above path seated) := by
  intro s st
  have pruned := Blind.foldl blind_dropStale seated
    { s with tree := s.tree.prune id above path, locks := s.locks.erase id } st
  exact (congrArg (tellAll · above (.childRemoved (Path.name path))) pruned).trans
    (blind_tellAll above (.childRemoved (Path.name path)) _ st)

/-- A climb of reaping does not concern the store. -/
lemma blind_reapFrom (id : NodeId) (k : Nat) : Blind (reapFrom · id k) := by
  induction k generalizing id with
  | zero => exact fun _ _ => rfl
  | succ k ih =>
    intro s st
    show reapFrom (s.withStore st) id (k + 1) = (s.reapFrom id (k + 1)).withStore st
    have idle : (s.withStore st).idleEphemeral? id = s.idleEphemeral? id := rfl
    rw [reapFrom, reapFrom, idle]
    cases s.idleEphemeral? id with
    | none => rfl
    | some path =>
      dsimp only
      have look : (s.withStore st).tree.find? (Path.parent path) =
          s.tree.find? (Path.parent path) := rfl
      rw [look]
      cases s.tree.find? (Path.parent path) with
      | none => rfl
      | some above =>
        have removed : (s.withStore st).removed id above path [] =
            (s.removed id above path []).withStore st := blind_removed id above path [] s st
        dsimp only
        rw [removed]
        exact ih above _ st

/-- Reaping does not concern the store. -/
lemma blind_reap (id : NodeId) : Blind (reap · id) := by
  intro s st
  show reap (s.withStore st) id = (s.reap id).withStore st
  have found : (s.withStore st).tree.get? id = s.tree.get? id := rfl
  rw [reap, reap, found]
  cases s.tree.get? id with
  | none => rfl
  | some n => exact blind_reapFrom id (Path.depth n.path) s st

/-- A handle is closed without the store. -/
lemma blind_detach (handle : HandleId) : Blind (detach · handle) := by
  intro s st
  show detach (s.withStore st) handle = (s.detach handle).withStore st
  have found : (s.withStore st).handles.get? handle = s.handles.get? handle := rfl
  rw [detach, detach, found]
  cases s.handles.get? handle with
  | none => rfl
  | some r => exact blind_reap r.node (s.unseat handle r) st

/-! ## Sessions -/

/-- The end of a session does not look at the store. -/
lemma blind_teardown (session : SessionId) : Blind (teardown · session) := by
  intro s st
  have handles : (s.withStore st).handlesOf session = s.handlesOf session := rfl
  show teardown (s.withStore st) session = (s.teardown session).withStore st
  have relieved : (s.withStore st).relieved session = (s.relieved session).withStore st :=
    blind_relieved session s st
  have detached := Blind.foldl blind_detach (s.handlesOf session) (s.relieved session) st
  rw [teardown, handles, relieved]
  exact congrArg (forget · session) detached

/-- Nor does the expiry of leases. -/
lemma blind_expired (now : Instant) : Blind (expired · now) :=
  fun s st => Blind.foldl blind_teardown (s.sessions.tick now).1 (s.ticked now) st

end Coordination.State
