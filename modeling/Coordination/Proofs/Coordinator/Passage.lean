import Coordination.Proofs.Coordinator.Reports
import Coordination.Proofs.Coordinator.Turnover

/-!
# The stages a call passes through

A call takes the tables from one state to another in stages: a handle leaves a lock, the waiters of
a node are served, a node goes, and so on. `Stage` lists them with what each may rely on and with
the locks it grants. A `Passage` is a sequence of stages between which the tables are linked; every
call is one, so whatever is to be known about the moments inside a call, or about all the locks
granted in its course, is said once for each kind of stage.
-/

namespace Coordination

/-- The handles that are told that they have acquired a lock. -/
def acquired (out : List Command) : List HandleId :=
  out.filterMap fun
    | .deliver ⟨handle, _, .lockAcquired⟩ _ => some handle
    | _ => none

namespace State

/-- One stage of a call, with the locks it grants. -/
inductive Stage (call : Call) (s : State) : List Grant → State → Prop
  /-- Sessions, the store or what is handed over change; nobody hears of a lock it acquired. -/
  | aside {s' : State} (tree : s'.tree = s.tree) (locks : s'.locks = s.locks)
      (handles : s'.handles = s.handles) (quiet : acquired s'.outbox = acquired s.outbox) :
      Stage call s [] s'
  | grown {above : NodeId} {path : String} (isDir ephemeral : Bool)
      (checked : s.tree.checkCreate path = .ok above) :
      Stage call s [] (s.grown above path isDir ephemeral)
  | seated (r : Handle) : Stage call s [] (s.seated r)
  | edited (id : NodeId) {change : Node → Node} (shape : ∀ n : Node, n.SameShape (change n))
      {n : Notification} (quiet : n ≠ .lockAcquired) : Stage call s [] (s.edited id change n)
  | granted {handle : HandleId} {r : Handle} {mode : LockMode}
      (found : s.handles.get? handle = some r) (asked : call.Asks ⟨r.session, handle, mode⟩)
      (admitted : (s.locks.lock r.node).admits mode = true) :
      Stage call s [⟨r.node, ⟨r.session, handle, mode⟩⟩] (s.granted handle r mode)
  | queued {handle : HandleId} {r : Handle} {mode : LockMode}
      (found : s.handles.get? handle = some r) (asked : call.Asks ⟨r.session, handle, mode⟩)
      (refused : (s.locks.lock r.node).admits mode = false) :
      Stage call s [] (s.queued handle r mode)
  | stripped (node : NodeId) (handle : HandleId) : Stage call s [] (s.strip node handle)
  | promoted (node : NodeId) : Stage call s (s.locks.promote node).1 (s.promote node)
  | unseated {handle : HandleId} {r : Handle} (found : s.handles.get? handle = some r) :
      Stage call s [] (s.unseat handle r)
  | reaped {id above : NodeId} {path : String} (idle : s.idleEphemeral? id = some path)
      (foundAbove : s.tree.find? (Path.parent path) = some above) :
      Stage call s [] (s.removed id above path [])
  | deleted {caller : SessionId} {path : String} {id above : NodeId} {n : Node}
      (asked : call = .delete caller path) (checked : s.tree.checkRemove path s.locks = .ok id)
      (node : s.tree.get? id = some n) (foundAbove : s.tree.find? (Path.parent path) = some above) :
      Stage call s [] (s.removed id above path n.handles.keys)

/-- What a call passes through, with the locks granted on the way. -/
inductive Passage (call : Call) (s : State) : List Grant → State → Prop
  | start : Passage call s [] s
  | stage {grants grants' : List Grant} {t t' : State} (before : Passage call s grants t)
      (linked : t.Linked) (stage : t.Stage call grants' t') :
      Passage call s (grants ++ grants') t'

variable {call : Call} {s s' t t' s₁ s₂ s₃ : State} {grants grants' : List Grant}
variable {id above node : NodeId} {handle : HandleId} {session : SessionId} {r : Handle}
variable {path : String} {n : Node} {mode : LockMode} {list : List HandleId}
variable {dying : Set SessionId} {loose : Set NodeId} {now : Instant}

/-- One stage is a passage. -/
lemma Passage.of_stage (linked : s.Linked) (stage : s.Stage call grants s') :
    s.Passage call grants s' := Passage.start.stage linked stage

/-- Passages follow one another. -/
lemma Passage.trans (first : s₁.Passage call grants s₂) (second : s₂.Passage call grants' s₃) :
    s₁.Passage call (grants ++ grants') s₃ := by
  induction second with
  | start =>
    rw [List.append_nil]
    exact first
  | stage before linked stage ih =>
    rw [← List.append_assoc]
    exact ih.stage linked stage

/-- Where something ends in the course of a call, there is a stage at which it ends. -/
lemma Passage.exists_stage {P : State → Prop} (passage : s.Passage call grants s') (holds : P s)
    (ends : ¬ P s') : ∃ before t grants' t' after, s.Passage call before t ∧ t.Linked ∧
      t.Stage call grants' t' ∧ t'.Passage call after s' ∧ P t ∧ ¬ P t' := by
  induction passage with
  | start => exact absurd holds ends
  | @stage gs gs' t t' before linked stage ih =>
    by_cases still : P t
    · exact ⟨gs, t, gs', t', [], before, linked, stage, .start, still, ends⟩
    · obtain ⟨before', u, gs₁, u', after, first, linked', mid, last, was, is⟩ := ih still
      exact ⟨before', u, gs₁, u', after ++ gs', first, linked', mid, last.stage linked stage, was, is⟩

/-- Locks are granted to handles that are open on their node. -/
lemma Stage.handle_of_grant (linked : s.Linked) (stage : s.Stage call grants s') :
    ∀ g ∈ grants, ∃ r, s.handles.get? g.waiter.handle = some r ∧ r.node = g.node := by
  intro g mem
  cases stage with
  | granted found =>
    obtain rfl := List.mem_singleton.mp mem
    exact ⟨_, found, rfl⟩
  | promoted node =>
    rw [LockTable.promote_eq] at mem
    obtain ⟨w, served, rfl⟩ := List.mem_map.mp mem
    obtain ⟨r, found, -, seat⟩ :=
      linked.handle_of_request node w (LockState.mem_requests_of_served served)
    exact ⟨r, found, seat⟩
  | _ => cases mem

/-! ## The lock of a node -/

/-- The waiters and newcomers that are granted the lock of a node. -/
def grantedOn (node : NodeId) (grants : List Grant) : List Waiter :=
  (grants.filter (·.node = node)).map Grant.waiter

/-- What a stage does to one lock, with the requests it grants. -/
inductive LockStage (call : Call) (l : LockState) : List Waiter → LockState → Prop
  | same : LockStage call l [] l
  | granted {w : Waiter} (asked : call.Asks w) : LockStage call l [w] (l.grant w.holder w.mode)
  | queued {w : Waiter} (asked : call.Asks w) : LockStage call l [] (l.queue w)
  | stripped (handle : HandleId) : LockStage call l [] (l.without (· = handle))
  | promoted : LockStage call l l.promote.1 l.promote.2

/-- With a node its lock goes. -/
lemma locks_removed (seated : List HandleId) :
    (s.removed id above path seated).locks = s.locks.erase id :=
  (sameTables_tellAll _).locks.trans (foldl_dropStale_frame seated).2.1

/-- A stage changes the lock of its own node and no other. -/
lemma LockStage.at_node {k : NodeId} {l : LockState} (served : List Waiter)
    (lock : s'.locks.lock node = if node = k then l else s.locks.lock node)
    (stage : LockStage call (s.locks.lock k) served l) :
    LockStage call (s.locks.lock node) (grantedOn node (served.map (Grant.mk k)))
      (s'.locks.lock node) := by
  by_cases here : node = k
  · subst here
    have all : grantedOn node (served.map (Grant.mk node)) = served := by
      simp [grantedOn, List.filter_map, Function.comp_def]
    rw [lock, if_pos rfl, all]
    exact stage
  · have none : grantedOn node (served.map (Grant.mk k)) = [] := by
      simp [grantedOn, List.filter_map, Function.comp_def, Ne.symm here]
    rw [lock, if_neg here, none]
    exact .same

/-- A stage does one thing to the lock of a node, or the node goes with it. -/
lemma Stage.lock (stage : s.Stage call grants s') (node : NodeId) :
    LockStage call (s.locks.lock node) (grantedOn node grants) (s'.locks.lock node) ∨
      s'.locks.lock node = .free ∧ s'.tree.get? node = none := by
  have same : s'.locks = s.locks →
      LockStage call (s.locks.lock node) (grantedOn node []) (s'.locks.lock node) :=
    fun eq => eq ▸ .same
  have gone : ∀ k, s'.locks = s.locks.erase k → s'.tree.get? k = none →
      LockStage call (s.locks.lock node) (grantedOn node []) (s'.locks.lock node) ∨
        s'.locks.lock node = .free ∧ s'.tree.get? node = none := by
    intro k locks absent
    by_cases here : node = k
    · subst here
      refine .inr ⟨?_, absent⟩
      rw [locks]
      exact LockTable.lock_of_none FinMap.get?_erase_self
    · refine .inl ?_
      rw [locks, LockTable.lock_erase here]
      exact .same
  cases stage with
  | aside tree locks => exact .inl (same locks)
  | grown => exact .inl (same (s.sameTables_grown ..).locks)
  | seated => exact .inl (same rfl)
  | edited => exact .inl (same (sameTables_tellAll _).locks)
  | @granted handle r mode found asked =>
    refine .inl (LockStage.at_node [⟨r.session, handle, mode⟩] ?_ (.granted asked))
    rw [State.granted, (sameTables_tell ..).locks, State.noteHeld]
    exact LockTable.lock_insert _ _
  | queued found asked =>
    exact .inl (LockStage.at_node [] (LockTable.lock_insert _ _) (.queued asked))
  | stripped k handle =>
    exact .inl (LockStage.at_node [] (LockTable.lock_strip _) (.stripped handle))
  | promoted k =>
    have lock := LockTable.lock_promote s.locks k node
    rw [LockTable.promote_eq] at lock ⊢
    refine .inl (LockStage.at_node _ ?_ .promoted)
    rw [(s.sameTables_promote k).locks]
    exact lock
  | unseated => exact .inl (same rfl)
  | @reaped id above path =>
    refine gone id (locks_removed _) ?_
    rw [tree_removed, Tree.get?_prune, if_pos rfl]
  | @deleted caller path id above n =>
    refine gone id (locks_removed _) ?_
    rw [tree_removed, Tree.get?_prune, if_pos rfl]

/-! ## The tree -/

/-- A stage leaves the tree alone, changes a node but not the shape of the tree, creates a node, or
removes one, either by request or because it is ephemeral and idle. -/
lemma Stage.tree_cases (linked : s.Linked) (stage : s.Stage call grants s') :
    s'.tree = s.tree ∨
    (∃ id change, (∀ n : Node, n.SameShape (change n)) ∧ s'.tree = s.tree.modify id change) ∨
    (∃ above path isDir ephemeral, s.tree.checkCreate path = .ok above ∧
      s'.tree = s.tree.grow above path isDir ephemeral) ∨
    ∃ id above path, s.tree.checkRemove path s.locks = .ok id ∧
      s.tree.find? (Path.parent path) = some above ∧ s'.tree = s.tree.prune id above path ∧
      s'.locks = s.locks.erase id ∧
      ((∃ caller, call = .delete caller path) ∨ s.idleEphemeral? id = some path) := by
  cases stage with
  | aside tree => exact .inl tree
  | grown isDir ephemeral checked =>
    exact .inr (.inr (.inl ⟨_, _, _, _, checked, (s.sameTables_grown ..).tree⟩))
  | seated r =>
    exact .inr (.inl ⟨r.node, (·.addHandle s.handles.next), fun _ => ⟨rfl, rfl, rfl, rfl⟩, rfl⟩)
  | edited id shape => exact .inr (.inl ⟨_, _, shape, (sameTables_tellAll _).tree⟩)
  | granted => exact .inl (sameTables_tell ..).tree
  | queued => exact .inl rfl
  | stripped => exact .inl rfl
  | promoted node => exact .inl (s.sameTables_promote node).tree
  | @unseated handle r =>
    exact .inr (.inl ⟨r.node, (·.dropHandle handle), fun _ => ⟨rfl, rfl, rfl, rfl⟩, rfl⟩)
  | reaped idle foundAbove =>
    exact .inr (.inr (.inr ⟨_, _, _, linked.checkRemove_of_idle idle, foundAbove, tree_removed _,
      locks_removed _, .inr idle⟩))
  | deleted asked checked node foundAbove =>
    exact .inr (.inr (.inr ⟨_, _, _, checked, foundAbove, tree_removed _, locks_removed _,
      .inl ⟨_, asked⟩⟩))

/-- No stage takes an identifier of a node back. -/
lemma Stage.lt_next (linked : s.Linked) (stage : s.Stage call grants s') (used : id < s.tree.next) :
    id < s'.tree.next := by
  rcases stage.tree_cases linked with eq | ⟨_, _, -, eq⟩ | ⟨_, _, _, _, -, eq⟩ |
    ⟨_, _, _, -, -, eq, -⟩
  · rw [eq]
    exact used
  · rw [eq]
    exact used
  · rw [eq]
    exact StrictOrder.trans used (Id.lt_next _)
  · rw [eq]
    exact used

/-- A node that is there after a stage is new, or was there before with the same path and as
ephemeral as it is now. -/
lemma Stage.node_of (linked : s.Linked) (stage : s.Stage call grants s') {n' : Node}
    (found' : s'.tree.get? id = some n') : id = s.tree.next ∨
      ∃ n, s.tree.get? id = some n ∧ n'.path = n.path ∧ n'.ephemeral = n.ephemeral := by
  rcases stage.tree_cases linked with eq | ⟨_, _, shape, eq⟩ | ⟨_, _, _, _, -, eq⟩ |
    ⟨_, _, _, -, -, eq, -⟩
  · exact .inr ⟨n', eq ▸ found', rfl, rfl⟩
  · rw [eq] at found'
    obtain ⟨n, found, rfl⟩ := FinMap.get?_modify_eq_some.mp found'
    refine .inr ⟨n, found, ?_⟩
    split
    · exact ⟨(shape n).1, (shape n).2.2.1⟩
    · exact ⟨rfl, rfl⟩
  · rw [eq, Tree.get?_grow] at found'
    split at found'
    · rename_i new
      exact .inl new
    · obtain ⟨n, found, rfl⟩ := ite_map_eq_some.mp found'
      refine .inr ⟨n, found, ?_⟩
      split <;> exact ⟨rfl, rfl⟩
  · rw [eq, Tree.get?_prune] at found'
    split at found'
    · cases found'
    · obtain ⟨n, found, rfl⟩ := ite_map_eq_some.mp found'
      refine .inr ⟨n, found, ?_⟩
      split <;> exact ⟨rfl, rfl⟩

/-- Nor does a passage. -/
lemma Passage.lt_next (passage : s.Passage call grants s') (used : id < s.tree.next) :
    id < s'.tree.next := by
  induction passage with
  | start => exact used
  | stage before linked stage ih => exact stage.lt_next linked ih

/-- A node that is not new after a passage was there before. -/
lemma Passage.node_of (passage : s.Passage call grants s') (used : id < s.tree.next) {n' : Node}
    (found' : s'.tree.get? id = some n') :
    ∃ n, s.tree.get? id = some n ∧ n'.path = n.path ∧ n'.ephemeral = n.ephemeral := by
  induction passage generalizing n' with
  | start => exact ⟨n', found', rfl, rfl⟩
  | stage before linked stage ih =>
    rcases stage.node_of linked found' with rfl | ⟨m, foundM, path, ephemeral⟩
    · exact absurd (before.lt_next used) (StrictOrder.irrefl _)
    · obtain ⟨n, found, path₀, ephemeral₀⟩ := ih foundM
      exact ⟨n, found, path.trans path₀, ephemeral.trans ephemeral₀⟩

/-! ## The stages of every deed -/

/-- Grants that are announced one after another. -/
lemma acquired_append (out out' : List Command) :
    acquired (out ++ out') = acquired out ++ acquired out' := List.filterMap_append

/-- Other news announce no grant. -/
lemma acquired_telling {n : Notification} (other : n ≠ .lockAcquired) (t : HandleTable)
    (handle : HandleId) : acquired (telling t n handle) = [] := by
  rw [telling]
  cases t.get? handle with
  | none => rfl
  | some r =>
    refine List.filterMap_eq_nil_iff.mpr fun c mem => ?_
    obtain ⟨m, told, rfl⟩ := List.mem_map.mp mem
    obtain rfl := List.mem_singleton.mp (List.mem_of_mem_filter told)
    cases m with
    | lockAcquired => exact absurd rfl other
    | _ => rfl

/-- Telling other news announces no grant. -/
lemma acquired_tell {n : Notification} (other : n ≠ .lockAcquired) (s : State) (handle : HandleId) :
    acquired (s.tell handle n).outbox = acquired s.outbox := by
  rw [outbox_tell, acquired_append, acquired_telling other, List.append_nil]

/-- What concerns neither the tree nor locks nor handles is a stage of every call. -/
lemma Linked.passage_aside (linked : s.Linked) (tree : s'.tree = s.tree) (locks : s'.locks = s.locks)
    (handles : s'.handles = s.handles) (quiet : acquired s'.outbox = acquired s.outbox) :
    s.Passage call [] s' := .of_stage linked (.aside tree locks handles quiet)

/-- Telling other news is a stage of every call. -/
lemma Linked.passage_tell (linked : s.Linked) {m : Notification} (other : m ≠ .lockAcquired)
    (handle : HandleId) : s.Passage call [] (s.tell handle m) := by
  have same := s.sameTables_tell handle m
  exact linked.passage_aside same.tree same.locks same.handles (acquired_tell other s handle)

/-- A handle gives up its lock, and is told if it held it. -/
lemma Linked.passage_yield (linked : s.Linked) (found : s.handles.get? handle = some r) :
    s.Passage call [] (s.yield handle) := by
  have first : s.Passage call [] (s.strip r.node handle) := .of_stage linked (.stripped _ _)
  rw [yield_of_get? found]
  split
  · exact first.trans ((linked.strip r.node handle).passage_tell (m := .lockReleased) nofun handle)
  · exact first

/-- Handles give up their locks without anyone being served. -/
lemma Linked.passage_surrendered (linked : s.Linked) (touched : FinSet NodeId)
    (seated : ∀ h ∈ list, ∃ r, s.handles.get? h = some r) :
    s.Passage call [] (s.surrendered touched list).2 := by
  induction list generalizing s touched with
  | nil => exact .start
  | cons h rest ih =>
    obtain ⟨r, found⟩ := seated h (List.mem_cons_self ..)
    have first : s.Passage call [] (s.yield h) := linked.passage_yield found
    refine first.trans (ih (linked.yield found) _ fun h' mem => ?_)
    rw [(linked.yields found).handles]
    exact seated h' (List.mem_cons_of_mem h mem)

/-! ## Who is granted a lock -/

/-- Locks were granted to handles that were open. Of those that are still open it was those that hold
the lock of their node only now, and none of them has lost a lock. -/
structure Earned (s : State) (grants : List Grant) (s' : State) : Prop where
  opened : ∀ g ∈ grants, ∃ r, s.handles.get? g.waiter.handle = some r
  kept : ∀ h r, s'.handles.get? h = some r → s.handles.get? h = some r
  stays : ∀ h r, s'.handles.get? h = some r → s.locks.isHolder r.node h = true →
    s'.locks.isHolder r.node h = true
  exact : ∀ h r, s'.handles.get? h = some r → ((∃ g ∈ grants, g.waiter.handle = h) ↔
    s.locks.isHolder r.node h = false ∧ s'.locks.isHolder r.node h = true)

/-- Where nothing happens nobody is granted a lock. -/
lemma Earned.refl (s : State) : s.Earned [] s where
  opened := nofun
  kept _ _ found := found
  stays _ _ _ held := held
  exact _ _ _ := by simp

/-- Grants made one after another. -/
lemma Earned.trans (first : s₁.Earned grants s₂) (second : s₂.Earned grants' s₃) :
    s₁.Earned (grants ++ grants') s₃ where
  opened g mem := by
    rcases List.mem_append.mp mem with mem | mem
    · exact first.opened g mem
    · obtain ⟨r, found⟩ := second.opened g mem
      exact ⟨r, first.kept _ r found⟩
  kept h r found := first.kept h r (second.kept h r found)
  stays h r found held := second.stays h r found (first.stays h r (second.kept h r found) held)
  exact h r found := by
    have found₂ := second.kept h r found
    have either : (∃ g ∈ grants ++ grants', g.waiter.handle = h) ↔
        (∃ g ∈ grants, g.waiter.handle = h) ∨ ∃ g ∈ grants', g.waiter.handle = h := by
      simp only [List.mem_append, or_and_right, exists_or]
    have stays := first.stays h r found₂
    have stays' := second.stays h r found
    rw [either, first.exact h r found₂, second.exact h r found]
    cases held : s₁.locks.isHolder r.node h with
    | true => simp [stays held]
    | false =>
      cases held₂ : s₂.locks.isHolder r.node h with
      | true => simp [stays' held₂]
      | false => simp

/-- Those served are waiters of the lock, whose handles are open on its node. -/
lemma Linked.earned_promote (linked : s.Linked) (node : NodeId) :
    s.Earned (s.locks.promote node).1 (s.promote node) := by
  have same := s.sameTables_promote node
  have holder : ∀ k h, (s.promote node).locks.isHolder k h = (s.locks.isHolder k h ||
      (decide (k = node) && decide (h ∈ (s.locks.lock node).promote.1.map Waiter.handle))) := by
    intro k h
    rw [same.locks]
    exact LockTable.isHolder_promote
  rw [LockTable.promote_eq]
  constructor
  case opened =>
    intro g mem
    obtain ⟨w, served, rfl⟩ := List.mem_map.mp mem
    obtain ⟨r, found, -⟩ :=
      linked.handle_of_request node w (LockState.mem_requests_of_served served)
    exact ⟨r, found⟩
  case kept =>
    intro h r found
    rw [same.handles] at found
    exact found
  case stays =>
    intro h r _ held
    rw [holder, held]
    rfl
  case exact =>
    intro h r found
    rw [same.handles] at found
    have granted : (∃ g ∈ (s.locks.lock node).promote.1.map (Grant.mk node), g.waiter.handle = h) ↔
        h ∈ (s.locks.lock node).promote.1.map Waiter.handle := by
      simp only [List.mem_map, exists_exists_and_eq_and]
    rw [granted, holder]
    constructor
    · intro mem
      obtain ⟨w, served, rfl⟩ := List.mem_map.mp mem
      obtain ⟨-, rfl⟩ := linked.origin_of_request found (LockState.mem_requests_of_served served)
      have waits := LockState.promote_sublist.mem served
      exact ⟨(linked.consistent.lock r.node).isHolder_of_waiting waits, by simp [mem]⟩
    · rintro ⟨free, held⟩
      rw [free, Bool.false_or, Bool.and_eq_true] at held
      exact of_decide_eq_true held.2

/-- The waiters of nodes are served, one node after another. -/
lemma Linked.passage_served (linked : s.Linked) (nodes : List NodeId) :
    ∃ grants, s.Passage call grants (nodes.foldl State.promote s) ∧
      s.Earned grants (nodes.foldl State.promote s) := by
  induction nodes generalizing s with
  | nil => exact ⟨[], .start, .refl s⟩
  | cons k rest ih =>
    obtain ⟨grants, later, earned⟩ := ih (linked.promote k)
    exact ⟨_, (Passage.of_stage linked (.promoted k)).trans later,
      (linked.earned_promote k).trans earned⟩

/-! ## Nodes and handles that go -/

/-- Reaping removes one node after the other. -/
lemma Linked.passage_reapFrom (linked : s.Linked) (settled : ∀ i, (s.locks.lock i).Settled)
    (k : Nat) : s.Passage call [] (s.reapFrom id k) := by
  induction k generalizing s id with
  | zero => exact .start
  | succ k ih =>
    rw [State.reapFrom]
    split
    · exact .start
    · rename_i path idle
      split
      · exact .start
      · rename_i above foundAbove
        obtain ⟨sheds, linked'⟩ := linked.removed_idle (settled id) idle foundAbove
        exact (Passage.of_stage linked (.reaped idle foundAbove)).trans
          (ih linked' fun i => sheds.settled (settled i))

/-- The whole climb of reaping removes one node after the other. -/
lemma Linked.passage_reap (linked : s.Linked) (settled : ∀ i, (s.locks.lock i).Settled)
    (id : NodeId) : s.Passage call [] (s.reap id) := by
  unfold State.reap
  split
  · exact .start
  · exact linked.passage_reapFrom settled _

/-- A handle is closed, and its node goes if it is ephemeral and idle now. -/
lemma Linked.passage_detach (linked : s.Linked) (settled : ∀ i, (s.locks.lock i).Settled)
    (found : s.handles.get? handle = some r)
    (idle : (s.locks.lock r.node).involves handle = false) :
    s.Passage call [] (s.detach handle) := by
  rw [State.detach, found]
  exact (Passage.of_stage linked (.unseated found)).trans
    ((linked.unseat found idle).passage_reap settled r.node)

/-- Handles leave one after another. -/
lemma Leaving.passage (leaving : s.Leaving list) :
    s.Passage call [] (list.foldl State.detach s) := by
  induction list generalizing s with
  | nil => exact .start
  | cons h rest ih =>
    obtain ⟨r, found, uninvolved⟩ := leaving.head
    obtain ⟨lost, -, -, left⟩ := leaving.detach
    exact (leaving.linked.passage_detach leaving.settled found uninvolved).trans (ih left)

/-! ## Sessions that end -/

/-- Handles that do not give up their locks hold what they held. -/
lemma Linked.isHolder_surrendered (linked : s.Linked) (touched : FinSet NodeId)
    (seated : ∀ h ∈ list, ∃ r, s.handles.get? h = some r) (other : handle ∉ list) :
    (s.surrendered touched list).2.locks.isHolder node handle =
      s.locks.isHolder node handle := by
  induction list generalizing s touched with
  | nil => rfl
  | cons h rest ih =>
    obtain ⟨apart, other⟩ := not_or.mp (List.mem_cons.not.mp other)
    obtain ⟨r, found⟩ := seated h (List.mem_cons_self ..)
    rw [State.surrendered, ih (linked.yield found) _ (fun h' mem => ?_) other,
      (sameTables_yield found).locks, State.strip, LockTable.isHolder_strip]
    · simp [apart]
    · rw [(linked.yields found).handles]
      exact seated h' (List.mem_cons_of_mem h mem)

/-- The locks that the handles of a session give up are granted to others: `u` is where the handles
have given them up and nobody has been served. -/
lemma Linked.passage_relieved (linked : s.Linked) (call : Call) (tidy : s.Tidy dying ∅)
    (ends : session ∈ dying) :
    ∃ (u : State) (grants : List Grant), s.Passage call grants (s.relieved session) ∧
      u.Earned grants (s.relieved session) ∧ u.handles = s.handles ∧
      ∀ k h, h ∉ s.handlesOf session → u.locks.isHolder k h = s.locks.isHolder k h := by
  have seated : ∀ h ∈ s.handlesOf session, ∃ r, s.handles.get? h = some r :=
    linked.seated_handlesOf
  obtain ⟨linked₁, -, yields⟩ := linked.surrenders tidy ends
  let u := (s.surrendered .empty (s.handlesOf session)).2.clearNotes session
  have first : s.Passage call [] u := (linked.passage_surrendered .empty seated).trans
    (linked₁.passage_aside rfl rfl rfl rfl)
  obtain ⟨grants, second, earned⟩ := (linked₁.clearNotes session).passage_served
    (s.surrendered .empty (s.handlesOf session)).1.keys
  exact ⟨u, grants, first.trans second, earned, yields.handles,
    fun k h other => linked.isHolder_surrendered .empty seated other⟩

/-- A session ends. No lock is granted to it while it does. -/
lemma Linked.passage_teardown (linked : s.Linked) (call : Call) (tidy : s.Tidy dying ∅)
    (ends : session ∈ dying) :
    ∃ grants, s.Passage call grants (s.teardown session) ∧
      s.Earned grants (s.teardown session) ∧
      ∀ g ∈ grants, ∀ r, s.handles.get? g.waiter.handle = some r → r.session ≠ session := by
  obtain ⟨-, leaving, -, -, -, handles, -⟩ := linked.relieved tidy ends
  obtain ⟨linked', -, ended⟩ := linked.teardown tidy ends
  obtain ⟨lost, sheds, -, linked₂⟩ := leaving.detachAll
  obtain ⟨u, grants, first, earned, same, before⟩ :=
    linked.passage_relieved call tidy ends
  have second : (s.relieved session).Passage call [] (s.teardown session) :=
    leaving.passage.trans (linked₂.passage_aside rfl rfl rfl rfl)
  have passage := first.trans second
  rw [List.append_nil] at passage
  -- the handles that stay are those of other sessions, and the locks of their nodes stay too
  have stays : ∀ h r, (s.teardown session).handles.get? h = some r →
      s.handles.get? h = some r ∧ r.session ≠ session ∧
      u.locks.isHolder r.node h = s.locks.isHolder r.node h ∧
      (s.teardown session).locks.isHolder r.node h =
        (s.relieved session).locks.isHolder r.node h := by
    intro h r found'
    obtain ⟨found, other⟩ := (ended.handle h r).mp found'
    have notOwn : h ∉ s.handlesOf session := by
      intro mem
      obtain ⟨r', found₂, own⟩ := linked.mem_handlesOf.mp mem
      obtain rfl : r = r' := Option.some.inj (found.symm.trans found₂)
      exact other own
    obtain ⟨n', node', -⟩ := linked'.node_of_handle h r found'
    have lock : (s.teardown session).locks.lock r.node = (s.relieved session).locks.lock r.node :=
      sheds.lock_eq (sheds.node_of node').1
    exact ⟨found, other, before _ _ notOwn, congrArg (LockState.isHolder · h) lock⟩
  refine ⟨grants, passage, ⟨?_, ?_, ?_, ?_⟩, ?_⟩
  · intro g mem
    rw [← same]
    exact earned.opened g mem
  · exact fun h r found' => (stays h r found').1
  · intro h r found' held
    obtain ⟨found, -, eqU, eq⟩ := stays h r found'
    rw [eq]
    exact earned.stays h r (handles ▸ found) (eqU.trans held)
  · intro h r found'
    obtain ⟨found, -, eqU, eq⟩ := stays h r found'
    rw [eq, ← eqU]
    exact earned.exact h r (handles ▸ found)
  · -- the handles of the session have left all locks
    rintro g mem r found rfl
    obtain ⟨-, held⟩ := (earned.exact _ r (handles ▸ found)).mp ⟨g, mem, rfl⟩
    obtain ⟨x, memX, eq⟩ := LockState.isHolder_iff.mp held
    exact leaving.idle _ (linked.mem_handlesOf.mpr ⟨r, found, rfl⟩) _ _
      (LockState.request_mem_requests memX) eq

/-- Sessions end one after another. -/
lemma Linked.passage_teardownAll {ids : List SessionId} (linked : s.Linked) (call : Call)
    (tidy : s.Tidy dying ∅) (apart : ids.Nodup) (ends : ∀ i ∈ ids, i ∈ dying) :
    ∃ grants, s.Passage call grants (ids.foldl State.teardown s) ∧
      s.Earned grants (ids.foldl State.teardown s) := by
  refine linked.teardown_induction (P := fun s s' => ∃ grants, s.Passage call grants s' ∧
    s.Earned grants s') ?_ ?_ ?_ tidy apart ends
  · exact fun s => ⟨[], .start, .refl s⟩
  · rintro s₁ s₂ s₃ ⟨grants, first, earned⟩ ⟨grants', later, earned'⟩
    exact ⟨grants ++ grants', first.trans later, earned.trans earned'⟩
  · intro s dying i linked tidy ends
    obtain ⟨grants, passage, earned, -⟩ := linked.passage_teardown call tidy ends
    exact ⟨grants, passage, earned⟩

/-! ## Whole deeds -/

/-- A holder leaves the lock and the waiters are served. -/
lemma Linked.passage_released (linked : s.Linked) :
    ∃ grants, s.Passage call grants (s.released handle r) := by
  let left := (s.strip r.node handle).noteReleased r.session ⟨r.node, handle⟩
  have linked₁ := linked.strip r.node handle
  have linked₂ : left.Linked := linked₁.noteReleased r.session ⟨r.node, handle⟩
  have told := left.sameTables_tell handle .lockReleased
  have first : s.Passage call [] left :=
    (Passage.of_stage linked (.stripped _ _)).trans (linked₁.passage_aside rfl rfl rfl rfl)
  have second := first.trans (linked₂.passage_tell (m := .lockReleased) nofun handle)
  exact ⟨_, second.trans (.of_stage (linked₂.of_sameTables told) (.promoted r.node))⟩

/-- A handle leaves the lock of its node, whether it holds it, waits for it or neither. -/
lemma Linked.passage_vacated (linked : s.Linked) (call : Call) (handle : HandleId) (r : Handle) :
    ∃ grants, s.Passage call grants (s.vacated handle r) := by
  unfold State.vacated
  split
  · exact linked.passage_released
  · split
    · exact ⟨_, (Passage.of_stage linked (.stripped _ _)).trans
        (.of_stage (linked.strip r.node handle) (.promoted r.node))⟩
    · exact ⟨[], .start⟩

/-- A handle leaves the lock and is closed. -/
lemma Sound.passage_closed (sound : s.Sound) (found : s.handles.get? handle = some r) :
    ∃ grants, s.Passage call grants (s.closed handle r) := by
  have vacated := sound.vacated found
  have found' : (s.vacated handle r).handles.get? handle = some r := by
    rw [(s.frame_vacated handle r).2.1]
    exact found
  obtain ⟨grants, first⟩ := sound.linked.passage_vacated call handle r
  exact ⟨_, first.trans (vacated.linked.passage_detach vacated.settled found'
    (sound.linked.not_involves_vacated found))⟩

/-- What is done is done in stages. -/
lemma Sound.passage (sound : s.Sound) {answer : Answer} (done : s.Done now call answer s') :
    ∃ grants, s.Passage call grants s' := by
  have contacted : ∀ i, s.Passage call [] (s.contacted i now) :=
    fun i => sound.linked.passage_aside rfl rfl rfl rfl
  have stored : ∀ i st, s.Passage call [] ((s.contacted i now).withStore st) :=
    fun i st => sound.linked.passage_aside rfl rfl rfl rfl
  have linked₁ := fun i => (sound.contacted i now).linked
  have linked₂ := fun i st => ((sound.contacted i now).withStore st).linked
  cases done with
  | createSession => exact ⟨_, sound.linked.passage_aside rfl rfl rfl rfl⟩
  | keepalive => exact ⟨_, contacted _⟩
  | @destroySession session live =>
    obtain ⟨linked, tidy⟩ := sound.marked session
    have first : s.Passage (.destroySession session) [] (s.marked session) :=
      sound.linked.passage_aside rfl rfl rfl rfl
    obtain ⟨grants, passage, -⟩ := linked.passage_teardown _ tidy rfl
    exact ⟨_, first.trans passage⟩
  | expireSessions as_of =>
    obtain ⟨linked, tidy⟩ := sound.ticked as_of
    have first : s.Passage (.expireSessions as_of) [] (s.ticked as_of) :=
      sound.linked.passage_aside rfl rfl rfl rfl
    obtain ⟨grants, passage, -⟩ :=
      linked.passage_teardownAll _ tidy (s.sessions.nodup_tick as_of) fun i mem => mem
    exact ⟨_, first.trans passage⟩
  | openHandle => exact ⟨_, (contacted _).stage (linked₁ _) (.seated _)⟩
  | openNew live asked checked stored₁ =>
    refine ⟨_, ((stored _ _).stage (linked₂ _ _) (.grown _ _ checked)).stage ?_ (.seated _)⟩
    exact (((sound.contacted _ now).withStore _).grown checked).linked
  | close owns =>
    obtain ⟨grants, passage⟩ := (sound.contacted _ now).passage_closed owns.found
    exact ⟨_, (contacted _).trans passage⟩
  | mkdir live checked => exact ⟨_, (stored _ _).stage (linked₂ _ _) (.grown _ _ checked)⟩
  | @delete session path id above n st live checked node foundAbove =>
    have removed := ((sound.contacted session now).withStore st).removed checked node foundAbove
    exact ⟨_, ((stored _ _).stage (linked₂ _ _) (.deleted rfl checked node foundAbove)).trans
      (removed.linked.passage_reap removed.settled _)⟩
  | pathExists => exact ⟨_, contacted _⟩
  | readdir => exact ⟨_, contacted _⟩
  | attrSet =>
    exact ⟨_, (stored _ _).stage (linked₂ _ _) (.edited _ (Node.sameShape_setAttr _ _) nofun)⟩
  | attrGet => exact ⟨_, contacted _⟩
  | attrDel =>
    exact ⟨_, (stored _ _).stage (linked₂ _ _) (.edited _ (Node.sameShape_dropAttr _) nofun)⟩
  | attrExists => exact ⟨_, contacted _⟩
  | attrList => exact ⟨_, contacted _⟩
  | lockGranted owns asks fresh admitted =>
    exact ⟨_, (contacted _).stage (linked₁ _) (.granted owns.found (.inl (by rw [owns.own])) admitted)⟩
  | lockQueued owns asks fresh refused =>
    exact ⟨_, (contacted _).stage (linked₁ _) (.queued owns.found (.inl (by rw [owns.own])) refused)⟩
  | tryLock owns asks fresh admitted =>
    exact ⟨_, (contacted _).stage (linked₁ _) (.granted owns.found (.inr (by rw [owns.own])) admitted)⟩
  | release =>
    obtain ⟨grants, passage⟩ := (linked₁ _).passage_released
    exact ⟨_, (contacted _).trans passage⟩
  | lockInfo => exact ⟨_, .start⟩
  | sizes => exact ⟨_, .start⟩
  | checkLocks => exact ⟨_, .start⟩

end State

namespace Coordinator

variable {c : Coordinator}

/-- Whether or not it succeeds, a call passes through stages before what it has announced is handed
over. -/
lemma passage_perform (sound : c.state.Sound) (sent : c.state.outbox = []) (now : Instant)
    (call : Call) : ∃ grants s', c.state.Passage call grants s' ∧
      (c.perform now call).coordinator.state = { s' with outbox := [] } := by
  rcases perform_cases sound now call with
    same | ⟨answer, s', deed, eq⟩ | ⟨e, s', ⟨kept, -⟩, eq⟩
  · refine ⟨[], c.state, .start, same.trans ?_⟩
    rw [← sent]
  · obtain ⟨grants, passage⟩ := sound.passage deed
    exact ⟨grants, s', passage, eq⟩
  · rcases kept with rfl | ⟨caller, -, rfl⟩
    · exact ⟨[], _, .start, eq⟩
    · exact ⟨[], c.state.contacted caller now,
        sound.linked.passage_aside rfl rfl rfl rfl, eq⟩

end Coordinator

end Coordination
