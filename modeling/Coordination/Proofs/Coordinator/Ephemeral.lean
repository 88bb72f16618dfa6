import Coordination.Proofs.Coordinator.Atomicity
import Coordination.Proofs.Coordinator.Passage

/-!
# The life of ephemeral nodes

Between two calls every ephemeral node is `Occupied`: a handle is open on it or a node is below it.
A call that takes a handle or a child away from a node leaves at most that node unoccupied, and
`reap` walks up from there until the nodes are occupied again. The other way round, a node goes
because a call deletes it, or at a stage of the call at which it is ephemeral and `Deserted`.
-/

namespace Coordination

namespace Tree

/-- Every ephemeral node has a handle open on it or a child, but perhaps those that are spared. -/
def Occupied (t : Tree) (spared : Set NodeId) : Prop :=
  ∀ id n, t.get? id = some n → n.ephemeral = true → id ∉ spared →
    (∃ h, h ∈ n.handles) ∨ ∃ name, name ∈ n.children

/-- A node is below this one. -/
def HasChild (t : Tree) (n : Node) : Prop :=
  ∃ id m, t.get? id = some m ∧ m.path ≠ Path.root ∧ Path.parent m.path = n.path

variable {t : Tree} {id above : NodeId} {path : String} {n : Node} {spared : Set NodeId}
variable {f : Node → Node}

/-- A directory knows whether it has children. -/
lemma WellFormed.hasChild_iff (wf : t.WellFormed) (found : t.get? id = some n) :
    t.HasChild n ↔ ∃ name, name ∈ n.children := by
  constructor
  · rintro ⟨child, m, foundM, notRoot, parent⟩
    exact ⟨_, (wf.children id n _ found).mpr
      ⟨m.path, child, wf.find?_path foundM, notRoot, parent, rfl⟩⟩
  · rintro ⟨name, mem⟩
    obtain ⟨path, child, foundChild, notRoot, parent, -⟩ := (wf.children id n name found).mp mem
    obtain ⟨m, foundM, rfl⟩ := wf.get?_of_find? foundChild
    exact ⟨child, m, foundM, notRoot, parent⟩

/-- A tree of durable nodes alone has no ephemeral node to be occupied. -/
lemma Bare.occupied (bare : t.Bare) : t.Occupied ∅ := by
  intro id n found ephemeral _
  rw [bare.persistent id n found] at ephemeral
  cases ephemeral

/-- Sparing nodes asks for less. -/
lemma Occupied.spare (occupied : t.Occupied ∅) (spared : Set NodeId) : t.Occupied spared :=
  fun id n found ephemeral _ => occupied id n found ephemeral (Set.notMem_empty id)

/-- Whatever becomes of the handles of a node, the others are occupied. -/
lemma Occupied.modify (occupied : t.Occupied ∅) : (t.modify id f).Occupied {id} := by
  intro i n' found' ephemeral other
  obtain ⟨n, found, rfl⟩ := FinMap.get?_modify_eq_some.mp found'
  rw [if_neg (Set.mem_singleton_iff.not.mp other)] at ephemeral ⊢
  exact occupied i n found ephemeral (Set.notMem_empty i)

/-- A node that keeps its handles stays occupied. -/
lemma Occupied.modify_of_handles (occupied : t.Occupied ∅) (shape : ∀ n : Node, n.SameShape (f n))
    (seats : ∀ n, (f n).handles = n.handles) : (t.modify id f).Occupied ∅ := by
  intro i n' found' ephemeral _
  obtain ⟨n, found, rfl⟩ := FinMap.get?_modify_eq_some.mp found'
  split at ephemeral
  case isTrue eq =>
    obtain ⟨-, -, same, children⟩ := shape n
    rw [if_pos eq, seats, children]
    exact occupied i n found (same ▸ ephemeral) (Set.notMem_empty i)
  case isFalse other =>
    rw [if_neg other]
    exact occupied i n found ephemeral (Set.notMem_empty i)

/-- A node that gets a handle is occupied. -/
lemma Occupied.addHandle (occupied : t.Occupied {id}) (handle : HandleId) :
    (t.modify id (·.addHandle handle)).Occupied ∅ := by
  intro i n' found' ephemeral _
  obtain ⟨n, found, rfl⟩ := FinMap.get?_modify_eq_some.mp found'
  split at ephemeral
  case isTrue eq =>
    rw [if_pos eq]
    exact .inl ⟨handle, FinSet.mem_add.mpr (.inl rfl)⟩
  case isFalse other =>
    rw [if_neg other]
    exact occupied i n found ephemeral other

/-- A new node is not occupied yet, unless it is persistent anyway. -/
lemma Occupied.grow (occupied : t.Occupied ∅) (isDir ephemeral : Bool) :
    (t.grow above path isDir ephemeral).Occupied {i | i = t.next ∧ ephemeral = true} := by
  intro i n' found' persistent other
  rw [get?_grow] at found'
  split at found'
  case isTrue eq =>
    obtain rfl := Option.some.inj found'
    exact absurd ⟨eq, persistent⟩ other
  case isFalse =>
    obtain ⟨n, found, rfl⟩ := ite_map_eq_some.mp found'
    split at persistent
    case isTrue eq =>
      rw [if_pos eq]
      exact .inr ⟨Path.name path, FinSet.mem_add.mpr (.inl rfl)⟩
    case isFalse other =>
      rw [if_neg other]
      exact occupied i n found persistent (Set.notMem_empty i)

/-- When a node goes, the one above it may be unoccupied. -/
lemma Occupied.prune (occupied : t.Occupied {id}) : (t.prune id above path).Occupied {above} := by
  intro i n' found' ephemeral other
  rw [get?_prune] at found'
  split at found'
  case isTrue => cases found'
  case isFalse stays =>
    rw [if_neg (Set.mem_singleton_iff.not.mp other)] at found'
    exact occupied i n' found' ephemeral stays

end Tree

namespace State

/-- A handle is open on the node. -/
def HasHandle (s : State) (id : NodeId) : Prop := ∃ h r, s.handles.get? h = some r ∧ r.node = id

/-- Nobody uses a node: no handle is open on it, no node is below it, and nobody holds its lock. -/
structure Deserted (s : State) (id : NodeId) (n : Node) : Prop where
  found : s.tree.get? id = some n
  closed : ¬ s.HasHandle id
  childless : ¬ s.tree.HasChild n
  free : (s.locks.lock id).holders = []

variable {call : Call} {s s' t : State} {id above : NodeId} {handle : HandleId} {r : Handle}
variable {session : SessionId} {path : String} {n n' : Node} {list : List HandleId} {now : Instant}
variable {dying : Set SessionId} {grants : List Grant}

/-- A handle is open on a node if the node lists one. -/
lemma Linked.hasHandle_iff (linked : s.Linked) (found : s.tree.get? id = some n) :
    s.HasHandle id ↔ ∃ h, h ∈ n.handles := by
  constructor
  · rintro ⟨h, r, open', seat⟩
    exact ⟨h, (linked.mem_node_iff open' found).mpr seat⟩
  · rintro ⟨h, mem⟩
    obtain ⟨r, open', seat⟩ := linked.handle_of_node id n h found mem
    exact ⟨h, r, open', seat⟩

/-! ## What is reaped is enough -/

/-- A node that is not reaped is occupied or not ephemeral. -/
lemma Linked.occupied_of_not_idle (linked : s.Linked) (busy : s.idleEphemeral? id = none)
    (occupied : s.tree.Occupied {id}) : s.tree.Occupied ∅ := by
  intro i n found ephemeral _
  by_cases eq : i = id
  · subst eq
    by_contra deserted
    obtain ⟨unseated, childless⟩ := not_or.mp deserted
    -- whoever holds the lock has a handle open on the node
    have free : (s.locks.lock i).holders = [] := by
      refine List.eq_nil_iff_forall_not_mem.mpr fun x mem => unseated ?_
      obtain ⟨r, open', -, seat⟩ := linked.handle_of_holder mem
      exact (linked.hasHandle_iff found).mp ⟨x.handle, r, open', seat⟩
    have idle := (idleEphemeral?_eq_some n.path).mpr ⟨n, found, rfl, ephemeral,
      not_exists.mp unseated, not_exists.mp childless, free⟩
    rw [busy] at idle
    cases idle
  · exact occupied i n found ephemeral eq

/-- A node that is idle and ephemeral is below the root. -/
lemma Linked.below_of_idle (linked : s.Linked) (idle : s.idleEphemeral? id = some path)
    (found : s.tree.get? id = some n) :
    n.path = path ∧ Path.isValid path = true ∧ path ≠ Path.root := by
  obtain ⟨m, foundM, eq, -⟩ := (idleEphemeral?_eq_some path).mp idle
  obtain rfl : n = m := Option.some.inj (found.symm.trans foundM)
  obtain ⟨valid, notRoot, -⟩ := Tree.checkRemove_eq_ok_iff.mp (linked.checkRemove_of_idle idle)
  exact ⟨eq, valid, notRoot⟩

/-- When a spared node goes the one above it may be idle. -/
lemma tree_occupied_removed (occupied : s.tree.Occupied {id}) (seated : List HandleId) :
    (s.removed id above path seated).tree.Occupied {above} := by
  rw [tree_removed]
  exact occupied.prune

/-- The walk upwards does not stop before all nodes are occupied: it has as many steps as the path of
the node has components. -/
lemma Linked.occupied_reapFrom (linked : s.Linked) (settled : ∀ i, (s.locks.lock i).Settled)
    (occupied : s.tree.Occupied {id}) {k : Nat} (found : s.tree.get? id = some n)
    (enough : n.path ≠ Path.root → Path.depth n.path ≤ k) : (s.reapFrom id k).tree.Occupied ∅ := by
  induction k generalizing s id n with
  | zero =>
    refine linked.occupied_of_not_idle ?_ occupied
    by_contra idle
    obtain ⟨path, idle⟩ := Option.ne_none_iff_exists'.mp idle
    obtain ⟨rfl, valid, notRoot⟩ := linked.below_of_idle idle found
    have enough := enough notRoot
    have deep := Path.depth_pos valid notRoot
    omega
  | succ k ih =>
    rw [State.reapFrom]
    split
    case h_1 busy => exact linked.occupied_of_not_idle busy occupied
    case h_2 path idle =>
      obtain ⟨rfl, valid, notRoot⟩ := linked.below_of_idle idle found
      obtain ⟨above, foundAbove⟩ := linked.find?_above (linked.checkRemove_of_idle idle)
      rw [foundAbove]
      obtain ⟨sheds, linked'⟩ := linked.removed_idle (settled id) idle foundAbove
      have occupied' : (s.removed id above n.path []).tree.Occupied {above} :=
        tree_occupied_removed occupied []
      obtain ⟨p, foundP, pathP⟩ := linked.tree.get?_of_find? foundAbove
      have other : above ∉ ({id} : Set NodeId) := by
        rintro rfl
        obtain rfl : n = p := Option.some.inj (found.symm.trans foundP)
        exact Path.parent_ne_self valid notRoot pathP.symm
      obtain ⟨p', foundP', pathP', -⟩ := sheds.node above other p foundP
      refine ih linked' (fun i => sheds.settled (settled i)) occupied' foundP' fun below => ?_
      -- the one above has one component less, or it is the root, which is never idle
      have enough := enough notRoot
      rw [pathP', pathP] at below ⊢
      have less := Path.depth_parent_lt valid notRoot below
      omega

/-- Reaping removes the spared node if it is idle, and those above it that are idle then. -/
lemma Linked.occupied_reap (linked : s.Linked) (settled : ∀ i, (s.locks.lock i).Settled)
    (occupied : s.tree.Occupied {id}) : (s.reap id).tree.Occupied ∅ := by
  rw [State.reap]
  split
  case h_1 absent =>
    intro i n found ephemeral _
    refine occupied i n found ephemeral ?_
    rintro rfl
    rw [absent] at found
    cases found
  case h_2 n found => exact linked.occupied_reapFrom settled occupied found fun _ => le_rfl

/-- Closing a handle leaves no idle ephemeral node. -/
lemma Linked.occupied_detach (linked : s.Linked) (settled : ∀ i, (s.locks.lock i).Settled)
    (found : s.handles.get? handle = some r)
    (idle : (s.locks.lock r.node).involves handle = false) (occupied : s.tree.Occupied ∅) :
    (s.detach handle).tree.Occupied ∅ := by
  rw [State.detach, found]
  exact (linked.unseat found idle).occupied_reap settled occupied.modify

/-- Handles that leave one after another leave no idle ephemeral node. -/
lemma Leaving.occupied (leaving : s.Leaving list) (occupied : s.tree.Occupied ∅) :
    (list.foldl State.detach s).tree.Occupied ∅ := by
  induction list generalizing s with
  | nil => exact occupied
  | cons h rest ih =>
    obtain ⟨r, found, uninvolved⟩ := leaving.head
    obtain ⟨lost, -, -, left⟩ := leaving.detach
    exact ih left (leaving.linked.occupied_detach leaving.settled found uninvolved occupied)

/-- The end of a session leaves no idle ephemeral node. -/
lemma Linked.occupied_teardown (linked : s.Linked) (tidy : s.Tidy dying ∅) (ends : session ∈ dying)
    (occupied : s.tree.Occupied ∅) : (s.teardown session).tree.Occupied ∅ := by
  obtain ⟨-, leaving, -, -, tree, -⟩ := linked.relieved tidy ends
  exact leaving.occupied (tree ▸ occupied)

/-- The end of several sessions leaves no idle ephemeral node. -/
lemma Linked.occupied_teardownAll {ids : List SessionId} (linked : s.Linked)
    (tidy : s.Tidy {i | i ∈ ids} ∅) (apart : ids.Nodup) (occupied : s.tree.Occupied ∅) :
    (ids.foldl State.teardown s).tree.Occupied ∅ := by
  refine linked.teardown_induction (P := fun s s' => s.tree.Occupied ∅ → s'.tree.Occupied ∅)
    ?_ ?_ ?_ tidy apart (fun _ mem => mem) occupied
  · exact fun s occupied => occupied
  · exact fun s₁ s₂ s₃ first later occupied => later (first occupied)
  · exact fun s dying i linked tidy ends => linked.occupied_teardown tidy ends

/-- Closing a handle on request leaves no idle ephemeral node. -/
lemma Sound.occupied_closed (sound : s.Sound) (found : s.handles.get? handle = some r)
    (occupied : s.tree.Occupied ∅) : (s.closed handle r).tree.Occupied ∅ := by
  have vacated := sound.vacated found
  obtain ⟨tree, handles, -⟩ := s.frame_vacated handle r
  exact vacated.linked.occupied_detach vacated.settled (handles ▸ found)
    (sound.linked.not_involves_vacated found) (tree ▸ occupied)

/-- Whatever is done, ephemeral nodes are occupied afterwards. -/
lemma Sound.occupied (sound : s.Sound) {answer : Answer} (done : s.Done now call answer s')
    (occupied : s.tree.Occupied ∅) : s'.tree.Occupied ∅ := by
  have told : ∀ {u v : State}, u.SameTables v → u.tree.Occupied ∅ → v.tree.Occupied ∅ := by
    intro u v same occupied
    rw [same.tree]
    exact occupied
  cases done with
  | @destroySession session live =>
    obtain ⟨linked, tidy⟩ := sound.marked session
    exact linked.occupied_teardown tidy rfl occupied
  | expireSessions as_of =>
    obtain ⟨linked, tidy⟩ := sound.ticked as_of
    exact linked.occupied_teardownAll tidy (s.sessions.nodup_tick as_of) occupied
  | openHandle => exact (occupied.spare _).addHandle _
  | @openNew session path flags interest callback above st =>
    refine Tree.Occupied.addHandle (fun i n found ephemeral other => ?_) _
    rw [(sameTables_grown ..).tree] at found
    exact occupied.grow _ _ i n found ephemeral fun new => other new.1
  | close owns => exact (sound.contacted _ now).occupied_closed owns.found occupied
  | @mkdir session path above st =>
    refine told (sameTables_grown ..) fun i n found ephemeral _ => ?_
    exact occupied.grow _ _ i n found ephemeral fun new => Bool.false_ne_true new.2
  | @delete session path id above n st live checked node foundAbove =>
    have removed := ((sound.contacted session now).withStore st).removed checked node foundAbove
    have occupied' : ((((s.contacted session now).withStore st).removed id above path
        n.handles.keys).tree.Occupied {above}) :=
      tree_occupied_removed (s := (s.contacted session now).withStore st) (occupied.spare {id}) _
    exact removed.linked.occupied_reap removed.settled occupied'
  | attrSet =>
    exact told (sameTables_tellAll _)
      (occupied.modify_of_handles (Node.sameShape_setAttr _ _) fun _ => rfl)
  | attrDel =>
    exact told (sameTables_tellAll _)
      (occupied.modify_of_handles (Node.sameShape_dropAttr _) fun _ => rfl)
  | lockGranted => exact told (sameTables_tell ..) occupied
  | tryLock => exact told (sameTables_tell ..) occupied
  | @release session handle r =>
    rw [((s.contacted session now).frame_released handle r).1]
    exact occupied
  | _ => exact occupied

/-! ## What goes is not used -/

/-- A node goes at a stage because the call deletes it, or because it is ephemeral and deserted. -/
lemma Stage.goes (linked : s.Linked) (stage : s.Stage call grants s')
    (found : s.tree.get? id = some n) (gone : s'.tree.get? id = none) :
    (∃ caller, call = .delete caller n.path) ∨ n.ephemeral = true ∧ s.Deserted id n := by
  rcases stage.tree_cases linked with eq | ⟨_, _, -, eq⟩ | ⟨_, _, _, _, -, eq⟩ |
    ⟨k, above, path, checked, -, eq, -, why⟩
  · rw [eq, found] at gone
    cases gone
  · rw [eq, Tree.get?_modify, found] at gone
    split at gone <;> cases gone
  · rw [eq, Tree.get?_grow, found] at gone
    repeat' split at gone
    all_goals cases gone
  · obtain rfl : id = k := by
      by_contra other
      rw [eq, Tree.get?_prune, if_neg other, found] at gone
      split at gone <;> cases gone
    obtain ⟨-, -, foundPath, -⟩ := Tree.checkRemove_eq_ok_iff.mp checked
    obtain ⟨m, foundM, rfl⟩ := linked.tree.get?_of_find? foundPath
    obtain rfl : n = m := Option.some.inj (found.symm.trans foundM)
    refine why.imp_right fun idle => ?_
    obtain ⟨m, foundM, -, ephemeral, unseated, childless, free⟩ :=
      (idleEphemeral?_eq_some n.path).mp idle
    obtain rfl : n = m := Option.some.inj (found.symm.trans foundM)
    refine ⟨ephemeral, found, ?_, ?_, free⟩
    · rw [linked.hasHandle_iff found, not_exists]
      exact unseated
    · rw [linked.tree.hasChild_iff found, not_exists]
      exact childless

/-- In the course of a call comes a stage at which an ephemeral node goes that nobody uses. -/
def Reaps (call : Call) (s : State) (id : NodeId) (path : String) (s' : State) : Prop :=
  ∃ before t n grants t' after, s.Passage call before t ∧ t.Deserted id n ∧
    n.ephemeral = true ∧ n.path = path ∧ t.Stage call grants t' ∧ t'.tree.get? id = none ∧
    t'.Passage call after s'

/-- A node that goes in the course of a call is deleted by it or reaped as idle. -/
lemma Passage.goes (linked : s.Linked) (passage : s.Passage call grants s')
    (found : s.tree.get? id = some n) (gone : s'.tree.get? id = none) :
    (∃ caller, call = .delete caller n.path) ∨ n.ephemeral = true ∧ Reaps call s id n.path s' := by
  obtain ⟨before, t, grants, t', after, first, linked', stage, later, was, is⟩ :=
    passage.exists_stage (P := fun t => ∃ n, t.tree.get? id = some n) ⟨n, found⟩ (by simp [gone])
  obtain ⟨m, foundM⟩ := was
  have gone' : t'.tree.get? id = none := Option.eq_none_iff_forall_ne_some.mpr (not_exists.mp is)
  obtain ⟨n₀, found₀, path, ephemeral⟩ := first.node_of (linked.tree.fresh id n found) foundM
  obtain rfl : n = n₀ := Option.some.inj (found.symm.trans found₀)
  rcases stage.goes linked' foundM gone' with ⟨caller, asked⟩ | ⟨eph, deserted⟩
  · exact .inl ⟨caller, path ▸ asked⟩
  · exact .inr ⟨ephemeral ▸ eph, before, t, m, grants, t', after, first, deserted, eph, path, stage,
      gone', later⟩

end State

namespace Coordinator

variable {allowed : Set Fault} {c : Coordinator}

/-- Wherever a run leads, ephemeral nodes are occupied. -/
lemma Reachable.occupied (reached : c.Reachable allowed) : c.state.tree.Occupied ∅ := by
  refine (Reachable.induction (P := fun s => s.tree.Occupied ∅) ?_ ?_ ?_ ?_ ?_ ?_ reached).2
  · exact fun terms now fault => Tree.bare_new.occupied
  · exact fun tree terms now store st rebuilt => (Tree.bare_of_recover rebuilt).occupied
  · exact fun s fault occupied => occupied
  · exact fun s caller now occupied => occupied
  · exact fun s now call answer s' sound _ deed occupied => sound.occupied deed occupied
  · exact fun s occupied => occupied

/-- Between two calls, every ephemeral node has an open handle or a child. A node goes with a call
that deletes it by its path, and a persistent node does not go otherwise. An ephemeral node may also
go at a stage of the call at which it has no handle, no child and no holder of its lock; then the
handles that were open on it are closed by the call or belong to sessions that end with it. -/
theorem Reachable.ephemeral_life (reached : c.Reachable allowed) :
    (∀ id n, c.state.tree.get? id = some n → n.ephemeral = true →
      c.state.HasHandle id ∨ c.state.tree.HasChild n) ∧
    ∀ fault now call id n, c.state.tree.get? id = some n →
      ((c.withFaults fault).perform now call).coordinator.state.tree.get? id = none →
      ((∃ caller, call = .delete caller n.path) ∨ n.ephemeral = true ∧
        (∃ s', State.Reaps call (c.withFaults fault).state id n.path s' ∧
          ((c.withFaults fault).perform now call).coordinator.state = { s' with outbox := [] }) ∧
        ∀ h r, c.state.handles.get? h = some r → r.node = id →
          call = .close r.session h ∨ call.Dooms c.state r.session) ∧
      (n.ephemeral = false → ∃ caller, call = .delete caller n.path) := by
  have linked := reached.sound.linked
  constructor
  · intro id n found ephemeral
    rw [linked.hasHandle_iff found, linked.tree.hasChild_iff found]
    exact reached.occupied id n found ephemeral (Set.notMem_empty id)
  · intro fault now call id n found gone
    have sound : (c.withFaults fault).state.Sound := reached.sound.withStore _
    obtain ⟨grants, s', passage, left⟩ := passage_perform sound reached.outbox_eq_nil now call
    have gone' : s'.tree.get? id = none := by
      rw [left] at gone
      exact gone
    have goes := passage.goes sound.linked found gone'
    refine ⟨?_, fun persistent => ?_⟩
    · refine or_iff_not_imp_left.mpr fun kept => ?_
      obtain ⟨ephemeral, reaps⟩ := goes.resolve_left kept
      refine ⟨ephemeral, ⟨s', reaps, left⟩, ?_⟩
      rintro h r open' rfl
      obtain ⟨sound', turnover⟩ := turnover_perform reached.sound fault now call
      rcases turnover.handles.open_handle h r open' with still | ⟨-, close | ⟨caller, path, eq, at'⟩ |
        dooms⟩
      · obtain ⟨m, foundM, -⟩ := sound'.linked.node_of_handle h r still
        exact nomatch gone.symm.trans foundM
      · exact .inl close
      · obtain ⟨m, foundM, rfl⟩ := linked.tree.get?_of_find? at'
        obtain rfl : n = m := Option.some.inj (found.symm.trans foundM)
        exact absurd ⟨caller, eq⟩ kept
      · exact .inr dooms
    · refine goes.resolve_right fun reaped => ?_
      rw [persistent] at reaped
      exact Bool.false_ne_true reaped.1

/-- A client leaves two ephemeral directories, one in the other, to another client's file in them. -/
def nested : List Call :=
  [.createSession, .createSession,
    .openHandle ⟨1⟩ "/d" (.union .create (.union .directory .ephemeral)) .none (.process "a"),
    .openHandle ⟨1⟩ "/d/e" (.union .create (.union .directory .ephemeral)) .none (.process "a"),
    .openHandle ⟨2⟩ "/d/e/f" (.union .create .ephemeral) .none (.process "b"),
    .close ⟨1⟩ ⟨1⟩, .close ⟨1⟩ ⟨2⟩]

/-- The outer directory stays because of what is in it, and goes when the session of the file ends.
-/
theorem ephemeral_life_nested : ∃ n, (after nested).state.tree.get? ⟨2⟩ = some n ∧ n.path = "/d" ∧
    n.ephemeral = true ∧
    ((after nested).state.HasHandle ⟨2⟩ ∨ (after nested).state.tree.HasChild n) ∧
    (((after nested).withFaults fun _ => none).perform 0
      (.destroySession ⟨2⟩)).coordinator.state.tree.get? ⟨2⟩ = none ∧
    ∃ s', State.Reaps (.destroySession ⟨2⟩) ((after nested).withFaults fun _ => none).state ⟨2⟩
      n.path s' := by
  have reached : (after nested).Reachable ∅ := reachable_after _
  obtain ⟨occupied, goes⟩ := reached.ephemeral_life
  have there : ((after nested).state.tree.get? ⟨2⟩).map (fun n => (n.path, n.ephemeral)) =
      some ("/d", true) := by
    decide +kernel
  obtain ⟨n, found, eq⟩ := Option.map_eq_some_iff.mp there
  obtain ⟨path, ephemeral⟩ := Prod.mk.inj eq
  have gone : (((after nested).withFaults fun _ => none).perform 0
      (.destroySession ⟨2⟩)).coordinator.state.tree.get? ⟨2⟩ = none := by
    decide +kernel
  obtain ⟨why, -⟩ := goes _ 0 _ ⟨2⟩ n found gone
  obtain ⟨-, ⟨s', reaps, -⟩, -⟩ := why.resolve_left nofun
  exact ⟨n, found, path, ephemeral, occupied ⟨2⟩ n found ephemeral, gone, s', reaps⟩

end Coordinator

end Coordination
