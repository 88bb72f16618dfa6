import Coordination.Proofs.Coordinator.SessionEnd
import Coordination.Proofs.Tree.Rebuild

/-!
# What outlives the coordinator

The store mirrors the tree wherever a run leads over a store that only refuses: a record is written
before the tree changes, and what goes without being deleted from the store is ephemeral. So a
recovery from the store at any point of a run succeeds and finds the durable nodes of the tree.
-/

namespace Coordination

namespace State

variable {s s' s₁ s₂ s₃ : State} {id above : NodeId} {handle : HandleId} {r : Handle} {path : String}
variable {n : Node} {st : Store} {gone : Set HandleId} {lost : Set NodeId} {ended : Set SessionId}

/-- The store holds what is to outlive the coordinator. -/
def Persists (s : State) : Prop := s.tree.Mirrored Record.Written s.store.contents

/-! ## Stages that do not concern the store -/

/-- Neither the store nor the records of the tree have changed. -/
structure Retains (s s' : State) : Prop where
  store : s'.store = s.store
  records : ∀ path, s'.tree.recordAt? path = s.tree.recordAt? path

/-- What two steps leave alone their sequence leaves alone. -/
lemma Retains.trans (first : s₁.Retains s₂) (later : s₂.Retains s₃) : s₁.Retains s₃ where
  store := later.store.trans first.store
  records path := (later.records path).trans (first.records path)

/-- With tree and store as they were nothing has changed. -/
lemma retains_of_tree (tree : s'.tree = s.tree) (store : s'.store = s.store) : s.Retains s' where
  store := store
  records path := congrArg (Tree.recordAt? · path) tree

/-- The store goes on holding what it is to hold. -/
lemma Persists.retains (persists : s.Persists) (retains : s.Retains s') : s'.Persists := by
  have mirrored := Tree.Mirrored.congr persists retains.records
  rw [← retains.store] at mirrored
  exact mirrored

/-- Nodes that go without the store being told are ephemeral. -/
lemma Linked.retains_sheds (linked : s.Linked) (linked' : s'.Linked) (sheds : s.Sheds gone lost s')
    (eph : s.Ephemeral lost) : s.Retains s' where
  store := sheds.store
  records := linked.tree.recordAt?_congr linked'.tree (fun _ _ => sheds.node_or eph) sheds.old_node

/-- The end of sessions changes neither the store nor the records. -/
lemma Ends.retains (ends : s.Ends ended s') (linked : s.Linked) (linked' : s'.Linked) :
    s.Retains s' where
  store := ends.store
  records := linked.tree.recordAt?_congr linked'.tree ends.node ends.old_node

/-- Reaping removes nodes that have no record. -/
lemma Sound.retains_reap (sound : s.Sound) (id : NodeId) : s.Retains (s.reap id) := by
  obtain ⟨lost, sheds, eph, linked'⟩ := sound.linked.reap sound.settled id
  exact sound.linked.retains_sheds linked' sheds eph

/-- A grant concerns no record. -/
lemma retains_granted (s : State) (handle : HandleId) (r : Handle) (mode : LockMode) :
    s.Retains (s.granted handle r mode) := by
  have told := sameTables_tell ({ s with
    locks := s.locks.insert r.node ((s.locks.lock r.node).grant ⟨r.session, handle⟩ mode) }.noteHeld
      r.session ⟨r.node, handle⟩) handle .lockAcquired
  exact retains_of_tree told.tree told.store

/-- A release concerns no record. -/
lemma retains_released (s : State) (handle : HandleId) (r : Handle) :
    s.Retains (s.released handle r) := by
  obtain ⟨tree, -, store⟩ := s.frame_released handle r
  exact retains_of_tree tree store

/-- Closing a handle concerns no record. -/
lemma Sound.retains_closed (sound : s.Sound) (found : s.handles.get? handle = some r) :
    s.Retains (s.closed handle r) := by
  obtain ⟨tree, handles, store⟩ := s.frame_vacated handle r
  have vacated := sound.vacated found
  obtain ⟨lost, sheds, eph, linked'⟩ := vacated.linked.detach vacated.settled (handles ▸ found)
    (sound.linked.not_involves_vacated found)
  exact (retains_of_tree tree store).trans (vacated.linked.retains_sheds linked' sheds eph)

/-- An opened handle concerns no record. -/
lemma Sound.retains_seated (sound : s.Sound) (r : Handle) (node : s.tree.get? r.node = some n) :
    s.Retains (s.seated r) where
  store := rfl
  records path := by
    have shape : ∀ m : Node, m.SameShape (m.addHandle (s.handles.add r).1) :=
      fun _ => ⟨rfl, rfl, rfl, rfl⟩
    refine (sound.linked.tree.recordAt?_modify shape node path).trans ?_
    split
    case isTrue eq =>
      rw [eq, sound.linked.tree.recordAt?_path node]
      rfl
    case isFalse => rfl

/-! ## Changes that are written -/

/-- Ephemeral nodes leave the store alone, and others call it. -/
lemma recorded_eq_ok {ephemeral : Bool} {call : Store → Except Interruption Store} :
    s.recorded ephemeral call = .ok st ↔
      (ephemeral = true ∧ st = s.store) ∨ (ephemeral = false ∧ call s.store = .ok st) := by
  unfold recorded
  cases ephemeral with
  | true => simp [eq_comm]
  | false => simp

/-- The store need not know of a node that has no record, neither before nor after. -/
lemma Persists.vacant (persists : s.Persists) {tree : Tree}
    (same : ∀ path', tree.recordAt? path' = if path' = path then none else s.tree.recordAt? path')
    (vacant : s.tree.recordAt? path = none) : tree.Mirrored Record.Written s.store.contents := by
  refine Tree.Mirrored.congr persists fun path' => (same path').trans ?_
  split
  case isTrue eq => rw [eq, vacant]
  case isFalse => rfl

/-- A record is written and then stands in the tree, unless its node is ephemeral. -/
lemma Persists.put (persists : s.Persists) {ephemeral : Bool} {rec : Record}
    (stored : s.recorded ephemeral (·.put (Record.key path) rec.encode) = .ok st) {tree : Tree}
    (same : ∀ path', tree.recordAt? path' = if path' = path then
      if ephemeral then none else some rec else s.tree.recordAt? path')
    (vacant : ephemeral = true → s.tree.recordAt? path = none) :
    tree.Mirrored Record.Written st.contents := by
  rcases recorded_eq_ok.mp stored with ⟨rfl, rfl⟩ | ⟨rfl, stored⟩
  · exact persists.vacant same (vacant rfl)
  · obtain ⟨-, rfl⟩ := Store.put_eq_ok.mp stored
    exact Tree.Mirrored.insert persists (.inl rfl) same

/-- A record is deleted and then gone from the tree, unless its node is ephemeral. -/
lemma Persists.delete (persists : s.Persists) {ephemeral : Bool}
    (stored : s.recorded ephemeral (·.delete (Record.key path)) = .ok st) {tree : Tree}
    (below : path ≠ Path.root) (same : ∀ path', tree.recordAt? path' =
      if path' = path then none else s.tree.recordAt? path')
    (vacant : ephemeral = true → s.tree.recordAt? path = none) :
    tree.Mirrored Record.Written st.contents := by
  rcases recorded_eq_ok.mp stored with ⟨rfl, rfl⟩ | ⟨rfl, stored⟩
  · exact persists.vacant same (vacant rfl)
  · obtain ⟨-, rfl⟩ := Store.delete_eq_ok.mp stored
    exact Tree.Mirrored.erase persists below same

/-- The record of a new node is written before the node is made. -/
lemma Persists.grown (persists : s.Persists) (sound : s.Sound) {isDir ephemeral : Bool}
    (checked : s.tree.checkCreate path = .ok above) (stored : s.recorded ephemeral
      (·.put (Record.key path) (Record.mk isDir .empty).encode) = .ok st) :
    ((s.withStore st).grown above path isDir ephemeral).Persists := by
  obtain ⟨-, new, -⟩ := Tree.checkCreate_eq_ok_iff.mp checked
  have frame := (s.withStore st).sameTables_grown above path isDir ephemeral
  rw [Persists, frame.tree, frame.store]
  exact persists.put stored sound.linked.tree.recordAt?_grow fun _ => Tree.recordAt?_of_none new

/-- The record of a node is rewritten before its attributes change. -/
lemma Persists.edited (persists : s.Persists) (sound : s.Sound) (node : s.tree.get? id = some n)
    {change : Node → Node} (shape : ∀ m : Node, m.SameShape (change m))
    (stored : s.recorded n.ephemeral
      (·.put (Record.key n.path) (change n).record.encode) = .ok st) (note : Notification) :
    ((s.withStore st).edited id change note).Persists := by
  have frame : { s with tree := s.tree.modify id change, store := st }.SameTables
      ((s.withStore st).edited id change note) := sameTables_tellAll note
  rw [Persists, frame.tree, frame.store]
  -- an ephemeral node has no record before the change either
  refine persists.put stored (sound.linked.tree.recordAt?_modify shape node) fun ephemeral => ?_
  rw [sound.linked.tree.recordAt?_path node, if_pos ephemeral]

/-- The record of a node is deleted before the node is removed. -/
lemma Persists.deleted (persists : s.Persists) (sound : s.Sound)
    (checked : s.tree.checkRemove path s.locks = .ok id) (node : s.tree.get? id = some n)
    (foundAbove : s.tree.find? (Path.parent path) = some above)
    (stored : s.recorded n.ephemeral (·.delete (Record.key path)) = .ok st) :
    ((s.withStore st).deleted id above path n).Persists := by
  obtain ⟨-, below, found, -⟩ := Tree.checkRemove_eq_ok_iff.mp checked
  have removed : ((s.withStore st).removed id above path n.handles.keys).Persists := by
    have store : ((s.withStore st).removed id above path n.handles.keys).store = st :=
      (sameTables_tellAll _).store.trans (foldl_dropStale_frame _).2.2
    rw [Persists, tree_removed, store]
    -- the handles that end with the node leave the records alone
    refine persists.delete stored below (sound.linked.tree.recordAt?_prune found) fun ephemeral => ?_
    rw [Tree.recordAt?_of_find? found, Tree.record?_of_get? node, if_pos ephemeral]
  exact removed.retains (((sound.withStore st).removed checked node foundAbove).retains_reap above)

/-! ## Calls -/

/-- Whatever is done, the store keeps up with the tree. -/
lemma Persists.done (persists : s.Persists) (sound : s.Sound) {now : Instant} {call : Call}
    {answer : Answer} (done : s.Done now call answer s') : s'.Persists := by
  have contact := fun session => sound.contacted session now
  have start : ∀ session, (s.contacted session now).Persists := fun _ => persists
  cases done with
  | createSession => exact persists
  | keepalive => exact persists
  | @destroySession session =>
    obtain ⟨linked, tidy⟩ := sound.marked session
    obtain ⟨linked', -, ends⟩ := linked.teardown tidy rfl
    have marked : (s.marked session).Persists := persists
    exact marked.retains (ends.retains linked linked')
  | expireSessions as_of =>
    obtain ⟨linked, tidy⟩ := sound.ticked as_of
    obtain ⟨sound', ends⟩ := linked.teardownAll tidy (s.sessions.nodup_tick as_of)
    have ticked : (s.ticked as_of).Persists := persists
    exact ticked.retains (ends.retains linked sound'.linked)
  | openHandle live valid found =>
    obtain ⟨n, node, -⟩ := sound.linked.tree.get?_of_find? found
    exact (start _).retains ((contact _).retains_seated _ node)
  -- the node is written with the store of before, and the handle opened on it afterwards
  | @openNew session path flags interest callback above st live asked checked stored =>
    have grown := (start session).grown (contact session) checked stored
    have sound' : (((s.contacted session now).withStore st).grown above path
        (flags.meets .directory) (flags.meets .ephemeral)).Sound :=
      ((contact session).withStore st).grown checked
    exact grown.retains (sound'.retains_seated _ (get?_grown ..))
  | close owns => exact (start _).retains ((contact _).retains_closed owns.found)
  | mkdir live checked stored => exact (start _).grown (contact _) checked stored
  | delete live checked node foundAbove stored =>
    exact (start _).deleted (contact _) checked node foundAbove stored
  | pathExists => exact persists
  | readdir => exact persists
  | attrSet owns node stored =>
    exact (start _).edited (contact _) node (Node.sameShape_setAttr _ _) stored _
  | attrGet => exact persists
  | attrDel owns node found stored =>
    exact (start _).edited (contact _) node (Node.sameShape_dropAttr _) stored _
  | attrExists => exact persists
  | attrList => exact persists
  | lockGranted => exact (start _).retains (retains_granted ..)
  | lockQueued => exact persists
  | tryLock => exact (start _).retains (retains_granted ..)
  | release => exact (start _).retains (retains_released ..)
  | lockInfo => exact persists
  | sizes => exact persists
  | checkLocks => exact persists

end State

namespace Coordinator

variable {allowed : Set Fault} {c : Coordinator}

/-- The store mirrors the tree wherever a run leads. -/
lemma Reachable.persists (reached : c.Reachable allowed) : c.state.Persists := by
  refine (Reachable.induction (P := State.Persists) ?_ ?_ ?_ ?_ ?_ ?_ reached).2
  case refine_1 => exact fun _ _ _ => Tree.mirrored_new
  case refine_2 => exact fun _ _ _ _ _ recovered => Tree.mirrored_of_recover recovered
  case refine_3 => exact fun _ _ persists => persists
  case refine_4 => exact fun _ _ _ persists => persists
  case refine_5 => exact fun _ _ _ _ _ sound _ done persists => persists.done sound done
  case refine_6 => exact fun _ persists => persists

/-- At any point of a run the records can be read off the store, each at the key of its path, and a
recovery from the store succeeds: it finds the root and the nodes that are neither ephemeral nor
below an ephemeral one, as they were. -/
theorem Reachable.recoverable (reached : c.Reachable allowed)
    (fits : ∀ i r, c.state.tree.record? i = some r → r.Fits) :
    c.state.tree.Mirrored (fun r v => Record.decode v = .ok r) c.state.store.contents ∧
    ∀ fault : StoreCall → Option Fault, fault .scan = none → fault .batch = none →
      ∃ t st, Tree.recover ⟨c.state.store.contents, fault⟩ = .ok (t, st) ∧ t.Bare ∧
        ∀ path r, (∃ i n, t.get? i = some n ∧ n.path = path ∧ n.record = r) ↔
          c.state.tree.Durable path ∧
            ∃ i n, c.state.tree.get? i = some n ∧ n.path = path ∧ n.record = r := by
  have wf := reached.sound.linked.tree
  have mirrored : c.state.tree.Mirrored (fun r v => Record.decode v = .ok r)
      c.state.store.contents := by
    refine Tree.Mirrored.imp reached.persists fun path r r' v kept same written => ?_
    obtain ⟨i, -, kept⟩ := Option.bind_eq_some_iff.mp kept
    exact written.decode_eq_ok ((fits i r kept).of_attrs same)
  refine ⟨mirrored, fun fault scan batch => ?_⟩
  obtain ⟨t, st, recovered, bare, records⟩ := Tree.recover_of_mirrored wf mirrored scan batch
  refine ⟨t, st, recovered, bare, fun path r => ?_⟩
  rw [← bare.recordAt?_eq_some, records]
  exact and_congr_right fun durable => durable.recordAt?_eq_some wf

/-- A client keeps a directory only for as long as it uses it, and a file for good. -/
def sheltered : Coordinator :=
  after [.createSession,
    .openHandle ⟨1⟩ "/e" (.union .create (.union .ephemeral .directory)) .none (.process "a"),
    .mkdir ⟨1⟩ "/e/d", .mkdir ⟨1⟩ "/d", .openHandle ⟨1⟩ "/d/f" .create .none (.process "a"),
    .attrSet ⟨1⟩ ⟨2⟩ "k" [1]]

/-- A directory below an ephemeral one does not come back; the others do, with their attributes. -/
theorem recoverable_sheltered : (∀ i r, sheltered.state.tree.record? i = some r → r.Fits) ∧
    ∃ t st, Tree.recover ⟨sheltered.state.store.contents, fun _ => none⟩ = .ok (t, st) ∧
      ∀ path r, (∃ i n, t.get? i = some n ∧ n.path = path ∧ n.record = r) ↔
        sheltered.state.tree.Durable path ∧
          ∃ i n, sheltered.state.tree.get? i = some n ∧ n.path = path ∧ n.record = r := by
  have fits : ∀ i r, sheltered.state.tree.record? i = some r → r.Fits := by
    have all : ∀ b ∈ sheltered.state.tree.nodes.toList, b.2.record.Fits := by decide +kernel
    intro i r kept
    obtain ⟨n, node, kept⟩ := Option.bind_eq_some_iff.mp kept
    split at kept
    · cases kept
    · obtain rfl := Option.some.inj kept
      exact all (i, n) (FinMap.get?_eq_some.mp node)
  have reached : sheltered.Reachable Fault.refusals := reachable_after _
  obtain ⟨t, st, recovered, -, nodes⟩ := (reached.recoverable fits).2 (fun _ => none) rfl rfl
  exact ⟨fits, t, st, recovered, nodes⟩

end Coordinator

end Coordination
