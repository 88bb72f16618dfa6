import Coordination.Proofs.Coordinator.Effects
import Coordination.Proofs.Coordinator.HandleViews

/-!
# What operations announce

Every stage of an operation tells the handles concerned what it does, and no others: whoever loses
or gets a lock, whoever watches a node below which something comes or goes. Handles that end are
retired when they no longer hold a lock, and whatever is announced later goes to others.
-/

namespace Coordination

namespace LockTable

variable {t : LockTable} {node node' : NodeId} {handle h : HandleId} {session : SessionId}
variable {mode : LockMode}

/-! ## Who holds a lock -/

/-- A handle that is taken out of a lock no longer holds it; the others hold what they held. -/
lemma isHolder_strip : (t.strip node handle).isHolder node' h =
    (t.isHolder node' h && !(decide (node' = node) && decide (h = handle))) := by
  rw [isHolder, lock_strip]
  split
  case isTrue eq =>
    subst eq
    rw [Bool.eq_iff_iff]
    simp only [LockState.isHolder_iff, LockState.without_holders, List.mem_filter, isHolder,
      Bool.and_eq_true, decide_true, Bool.true_and, Bool.not_eq_true', decide_eq_false_iff_not]
    constructor
    · rintro ⟨x, ⟨mem, other⟩, rfl⟩
      exact ⟨⟨x, mem, rfl⟩, other⟩
    · rintro ⟨⟨x, mem, rfl⟩, other⟩
      exact ⟨x, ⟨mem, other⟩, rfl⟩
  case isFalse other => simp [isHolder, other]

/-- Those served hold the lock as well. -/
lemma isHolder_promote : isHolder (t.modify node (·.promote.2)) node' h =
    (t.isHolder node' h ||
      (decide (node' = node) && decide (h ∈ (t.lock node).promote.1.map Waiter.handle))) := by
  rw [isHolder, lock_modify rfl]
  split
  case isTrue eq =>
    subst eq
    have parts := (LockState.serve_parts (l := t.lock node') (t.lock node').waiters).1
    simp only [LockState.isHolder, isHolder, LockState.promote, parts, List.any_append,
      decide_true, Bool.true_and]
    congr 1
    rw [Bool.eq_iff_iff]
    simp only [List.any_map, List.any_eq_true, Function.comp_apply, Waiter.holder,
      decide_eq_true_eq, List.mem_map]
    exact exists_congr fun w => and_congr_right' decide_eq_true_iff
  case isFalse other => simp [isHolder, other]

/-- Who holds a lock that is put in place of another. -/
lemma isHolder_insert {l : LockState} : isHolder (t.insert node l) node' h =
    if node' = node then l.isHolder h else t.isHolder node' h := by
  rw [isHolder, lock_insert]
  split <;> rfl

/-- The locks of other nodes are held as before. -/
lemma isHolder_erase (other : node' ≠ node) :
    isHolder (FinMap.erase t node) node' h = t.isHolder node' h := by
  rw [isHolder, lock_erase other, isHolder]

end LockTable

namespace State

variable {s s' : State} {id above node : NodeId} {handle h : HandleId} {session : SessionId}
variable {r : Handle} {n : Node} {path : String} {list : List HandleId} {mode : LockMode}
variable {dying : Set SessionId} {loose : Set NodeId}

/-- What can be known of a node that is there. -/
lemma view?_of_node (node : s.tree.get? r.node = some n) :
    s.view? h r = some ⟨n.names, s.locks.isHolder r.node h⟩ := by
  rw [view?, node]
  rfl

/-- A view is the same where the node and the lock are. -/
lemma view?_congr (node : s'.tree.get? r.node = s.tree.get? r.node)
    (holds : s'.locks.isHolder r.node h = s.locks.isHolder r.node h) :
    s'.view? h r = s.view? h r := by
  rw [view?, view?, node, holds]

/-- A handle that is not involved in the lock of its node does not hold it. -/
lemma Linked.view?_of_idle (linked : s.Linked) (found : s.handles.get? handle = some r)
    (idle : (s.locks.lock r.node).involves handle = false) :
    ∃ v, s.view? handle r = some v ∧ v.holds = false := by
  obtain ⟨n, node, -⟩ := linked.node_of_handle handle r found
  exact ⟨_, view?_of_node node, (Bool.or_eq_false_iff.mp idle).1⟩

/-! ## Locks -/

/-- Whoever gives up a lock is told. -/
lemma Linked.reports_of_release (linked : s.Linked) (found : s.handles.get? handle = some r)
    (held : s.locks.isHolder r.node handle = true) (tree : s'.tree = s.tree)
    (locks : s'.locks = s.locks.strip r.node handle) (handles : s'.handles = s.handles)
    (outbox : s'.outbox = s.outbox ++ telling s.handles .lockReleased handle) : s.Reports s' := by
  refine reports_of_tellings [handle] .lockReleased (List.nodup_singleton _) handles
    (by simpa using outbox) ?_ ?_
  · intro h r' found' mem
    obtain rfl := List.mem_singleton.mp mem
    obtain rfl := Option.some.inj (found.symm.trans found')
    obtain ⟨n, node, -⟩ := linked.node_of_handle h r found
    have lost : s'.locks.isHolder r.node h = false := by
      rw [locks, LockTable.isHolder_strip]
      simp
    have node' : s'.tree.get? r.node = some n := tree ▸ node
    rw [view?_of_node node, view?_of_node node', held, lost]
    rfl
  · intro h r' _ mem
    have other : h ≠ handle := fun eq => mem (List.mem_singleton.mpr eq)
    refine view?_congr (by rw [tree]) ?_
    rw [locks, LockTable.isHolder_strip]
    simp [other]

/-- Whoever only waited for a lock leaves it unnoticed. -/
lemma reports_strip (idle : s.locks.isHolder node handle = false) :
    s.Reports (s.strip node handle) := by
  refine reports_of_quiet rfl rfl fun h r _ => view?_congr rfl ?_
  rw [strip, LockTable.isHolder_strip]
  by_cases same : r.node = node ∧ h = handle
  · obtain ⟨rfl, rfl⟩ := same
    simp [idle]
  · simp only [← Bool.decide_and, same, decide_false, Bool.not_false, Bool.and_true]

/-- A holder that gives up its lock is told so. -/
lemma Linked.reports_yield (linked : s.Linked) (found : s.handles.get? handle = some r) :
    s.Reports (s.yield handle) := by
  rw [yield_of_get? found]
  split
  case isTrue held =>
    have same := (s.strip r.node handle).sameTables_tell handle .lockReleased
    exact linked.reports_of_release found held same.tree same.locks same.handles (outbox_tell ..)
  case isFalse idle => exact reports_strip (Bool.eq_false_iff.mpr idle)

/-- Handles that give up their locks one after another are told so. -/
lemma Linked.reports_surrendered (linked : s.Linked) (touched : FinSet NodeId)
    (own : ∀ h ∈ list, ∃ r, s.handles.get? h = some r) :
    s.Reports (s.surrendered touched list).2 := by
  induction list generalizing s touched with
  | nil => exact .refl s
  | cons h rest ih =>
    obtain ⟨r, found⟩ := own h (List.mem_cons_self ..)
    refine (linked.reports_yield found).trans (ih (linked.yield found) _ fun h' mem => ?_)
    rw [(linked.yields found).handles]
    exact own h' (List.mem_cons_of_mem h mem)

/-- Those served are told in the order of service. -/
lemma outbox_welcomes (served : List Waiter) :
    ((served.map (Grant.mk node)).foldl welcome s).outbox = s.outbox ++
      (served.map Waiter.handle).flatMap (telling s.handles .lockAcquired) := by
  induction served generalizing s with
  | nil => simp
  | cons w rest ih =>
    let noted := s.noteHeld w.session ⟨node, w.handle⟩
    have same := noted.sameTables_tell w.handle .lockAcquired
    have first := noted.outbox_tell w.handle .lockAcquired
    rw [List.map_cons, List.foldl_cons, ih, List.map_cons, List.flatMap_cons, ← List.append_assoc]
    exact congr (congrArg _ first) (by rw [welcome, same.handles]; rfl)

/-- Those served are told, in the order of their arrival. -/
lemma outbox_promote (s : State) (node : NodeId) : (s.promote node).outbox = s.outbox ++
    ((s.locks.lock node).promote.1.map Waiter.handle).flatMap
      (telling s.handles .lockAcquired) := by
  rw [State.promote, LockTable.promote_eq]
  exact outbox_welcomes _

/-- Waiters that are served are told. -/
lemma Linked.reports_promote (linked : s.Linked) (node : NodeId) : s.Reports (s.promote node) := by
  have same := s.sameTables_promote node
  have consistent := linked.consistent.lock node
  have apart : ((s.locks.lock node).promote.1.map Waiter.handle).Nodup :=
    (List.nodup_append.mp consistent.unique).2.1.sublist (LockState.promote_sublist.map _)
  refine reports_of_tellings _ .lockAcquired apart same.handles (s.outbox_promote node) ?_ ?_
  · intro h r found mem
    obtain ⟨w, served, rfl⟩ := List.mem_map.mp mem
    obtain ⟨-, rfl⟩ := linked.origin_of_request found (LockState.mem_requests_of_served served)
    obtain ⟨n, node, -⟩ := linked.node_of_handle _ r found
    have node' : (s.promote r.node).tree.get? r.node = some n := by
      rw [same.tree]
      exact node
    have held : (s.promote r.node).locks.isHolder r.node w.handle = true := by
      rw [same.locks]
      exact LockTable.isHolder_promote.trans (by simp [mem])
    have before : s.locks.isHolder r.node w.handle = false :=
      consistent.isHolder_of_waiting (LockState.promote_sublist.mem served)
    rw [view?_of_node node, view?_of_node node', before, held]
    rfl
  · intro h r found mem
    refine view?_congr (by rw [same.tree]) ?_
    rw [same.locks]
    exact LockTable.isHolder_promote.trans (by simp [mem])

/-- Serving the waiters of several nodes tells those served. -/
lemma Linked.reports_served (linked : s.Linked) (nodes : List NodeId) :
    s.Reports (nodes.foldl State.promote s) := by
  induction nodes generalizing s with
  | nil => exact .refl s
  | cons k rest ih => exact (linked.reports_promote k).trans (ih (linked.promote k))

/-- A request that is granted on the spot is announced. -/
lemma Sound.reports_granted (sound : s.Sound) (found : s.handles.get? handle = some r)
    (fresh : (s.locks.lock r.node).involves handle = false) :
    s.Reports (s.granted handle r mode) := by
  let noted := ({ s with
    locks := s.locks.insert r.node ((s.locks.lock r.node).grant ⟨r.session, handle⟩ mode) }.noteHeld
      r.session ⟨r.node, handle⟩)
  have same := noted.sameTables_tell handle .lockAcquired
  have holder : ∀ k h', (s.granted handle r mode).locks.isHolder k h' =
      (s.locks.isHolder k h' || (decide (k = r.node) && decide (h' = handle))) := by
    intro k h'
    rw [show (s.granted handle r mode).locks = _ from same.locks]
    refine LockTable.isHolder_insert.trans ?_
    split
    case isTrue eq =>
      subst eq
      simp [LockState.isHolder, LockState.grant, LockTable.isHolder, eq_comm]
    case isFalse other => simp [other]
  refine reports_of_tellings [handle] .lockAcquired (List.nodup_singleton _) same.handles
    ?_ ?_ ?_
  · exact (noted.outbox_tell handle .lockAcquired).trans (by simp; rfl)
  · intro h r' found' mem
    obtain rfl := List.mem_singleton.mp mem
    obtain rfl := Option.some.inj (found.symm.trans found')
    obtain ⟨n, node, -⟩ := sound.linked.node_of_handle h r found
    have node' : (s.granted h r mode).tree.get? r.node = some n := by
      rw [show (s.granted h r mode).tree = _ from same.tree]
      exact node
    have before : s.locks.isHolder r.node h = false := (Bool.or_eq_false_iff.mp fresh).1
    rw [view?_of_node node, view?_of_node node', holder, before]
    simp only [decide_true, Bool.and_self, Bool.or_true]
    rfl
  · intro h r' _ mem
    have other : h ≠ handle := fun eq => mem (List.mem_singleton.mpr eq)
    refine view?_congr ?_ ?_
    · rw [show (s.granted handle r mode).tree = _ from same.tree]
      rfl
    · simp [holder, other]

/-- A request that waits its turn is not. -/
lemma reports_queued : s.Reports (s.queued handle r mode) := by
  refine reports_of_quiet rfl rfl fun h r' _ => view?_congr rfl ?_
  refine LockTable.isHolder_insert.trans ?_
  split
  case isTrue eq =>
    rw [eq]
    rfl
  case isFalse => rfl

/-! ## Nodes -/

/-- Handles on a node are told that something is new below it. -/
lemma Linked.reports_grown (linked : s.Linked) {isDir ephemeral : Bool}
    (checked : s.tree.checkCreate path = .ok above) :
    s.Reports (s.grown above path isDir ephemeral) := by
  have wf := linked.tree
  obtain ⟨valid, new, foundAbove, -⟩ := Tree.checkCreate_eq_ok_iff.mp checked
  obtain ⟨p, nodeAbove, pathAbove⟩ := wf.get?_of_find? foundAbove
  have notRoot : path ≠ Path.root := by
    rintro rfl
    rw [wf.find?_root] at new
    cases new
  have fresh : Path.name path ∉ p.children := by
    intro mem
    obtain ⟨path', child, found, notRoot', parent, name⟩ :=
      (wf.children above p _ nodeAbove).mp mem
    have same := Path.eq_of_parent_of_name (wf.valid path' child found) notRoot' valid notRoot
      (parent.trans pathAbove) name
    rw [← same, found] at new
    cases new
  have old : ∀ i m, s.tree.get? i = some m → i ≠ s.tree.next := by
    rintro i m node rfl
    rw [wf.get?_next] at node
    cases node
  have look : ∀ i, i ≠ s.tree.next → (s.tree.grow above path isDir ephemeral).get? i =
      if i = above then (s.tree.get? i).map (·.addChild (Path.name path)) else s.tree.get? i :=
    fun i other => (Tree.get?_grow isDir ephemeral i).trans (if_neg other)
  have nodeAbove' : (s.tree.grow above path isDir ephemeral).get? above =
      some (p.addChild (Path.name path)) := by
    rw [look above (old above p nodeAbove), if_pos rfl, nodeAbove]
    rfl
  have same := s.sameTables_grown above path isDir ephemeral
  refine reports_of_tellings p.handles.keys (.childAdded (Path.name path))
    FinMap.keys_nodup same.handles
    (outbox_tellAll (s := { s with tree := s.tree.grow above path isDir ephemeral }) nodeAbove' _)
    ?_ ?_
  · intro h r found mem
    obtain rfl := (linked.mem_node_iff found nodeAbove).mp (FinMap.mem_keys.mp mem)
    have node' : (s.grown r.node path isDir ephemeral).tree.get? r.node =
        some (p.addChild (Path.name path)) := by
      rw [same.tree]
      exact nodeAbove'
    rw [view?_of_node nodeAbove, view?_of_node node', same.locks, Option.bind_some,
      View.after?_eq_some]
    exact ⟨if_neg fresh, rfl⟩
  · intro h r found mem
    obtain ⟨m, node, -⟩ := linked.node_of_handle h r found
    have other : r.node ≠ above := fun eq =>
      mem (FinMap.mem_keys.mpr ((linked.mem_node_iff found nodeAbove).mpr eq))
    refine view?_congr ?_ (by rw [same.locks])
    rw [same.tree]
    exact (look r.node (old _ m node)).trans (if_neg other)

/-- Handles on a node are told that an attribute has changed. -/
lemma Linked.reports_edited (linked : s.Linked) (node : s.tree.get? id = some n)
    {change : Node → Node} {what : Notification} (seats : (change n).handles = n.handles)
    (fits : n.names.after? what = some (change n).names)
    (plain : ∀ b, holdsAfter? b what = some b) : s.Reports (s.edited id change what) := by
  have look : ∀ i, (s.tree.modify id change).get? i =
      if i = id then (s.tree.get? i).map change else s.tree.get? i :=
    fun i => Tree.get?_modify change i
  have node' : (s.tree.modify id change).get? id = some (change n) := by
    rw [look, if_pos rfl, node]
    rfl
  have same : { s with tree := s.tree.modify id change }.SameTables (s.edited id change what) :=
    sameTables_tellAll what
  refine reports_of_tellings n.handles.keys what FinMap.keys_nodup same.handles ?_ ?_ ?_
  · rw [← seats]
    exact outbox_tellAll (s := { s with tree := s.tree.modify id change }) node' what
  · intro h r found mem
    obtain rfl := (linked.mem_node_iff found node).mp (FinMap.mem_keys.mp mem)
    have after : (s.edited r.node change what).tree.get? r.node = some (change n) := by
      rw [same.tree]
      exact node'
    rw [view?_of_node node, view?_of_node after, same.locks, Option.bind_some, View.after?_eq_some]
    exact ⟨fits, plain _⟩
  · intro h r found mem
    have other : r.node ≠ id := fun eq =>
      mem (FinMap.mem_keys.mpr ((linked.mem_node_iff found node).mpr eq))
    refine view?_congr ?_ (by rw [same.locks])
    rw [same.tree]
    exact (look r.node).trans (if_neg other)

/-! ## Handles that end -/

/-- Handles that hold no lock end one after another. -/
lemma reports_dropStale (apart : list.Nodup) (seated : ∀ h ∈ list, ∃ r,
      s.handles.get? h = some r ∧ ∃ v, s.view? h r = some v ∧ v.holds = false) :
    s.Reports (list.foldl dropStale s) := by
  induction list generalizing s with
  | nil => exact .refl s
  | cons h rest ih =>
    obtain ⟨fresh, apart⟩ := List.nodup_cons.mp apart
    obtain ⟨r, found, free⟩ := seated h (List.mem_cons_self ..)
    have first := s.dropStale_of_get? found
    have closed : ∀ h', (s.dropStale h).handles.get? h' =
        if h' = h then none else s.handles.get? h' := by
      intro h'
      rw [first]
      exact FinMap.get?_erase ..
    have views : ∀ h' r', (s.dropStale h).view? h' r' = s.view? h' r' := by
      intro h' r'
      rw [first]
      rfl
    have closes : s.Reports (s.dropStale h) :=
      reports_of_close found closed (by rw [first]; rfl) free fun h' r' _ _ => views h' r'
    refine closes.trans (ih apart fun h' mem => ?_)
    obtain ⟨r', found', free'⟩ := seated h' (List.mem_cons_of_mem h mem)
    refine ⟨r', ?_, views h' r' ▸ free'⟩
    rw [closed, if_neg, found']
    rintro rfl
    exact fresh mem

/-- The end of handles does not depend on tree and locks. -/
lemma foldl_dropStale_with (tree : Tree) (locks : LockTable) (list : List HandleId) :
    list.foldl dropStale { s with tree, locks } = { list.foldl dropStale s with tree, locks } := by
  induction list generalizing s with
  | nil => rfl
  | cons h rest ih =>
    have first : dropStale { s with tree, locks } h = { s.dropStale h with tree, locks } := by
      unfold dropStale
      dsimp only
      split <;> rfl
    rw [List.foldl_cons, first, ih]
    rfl

/-- A node that nobody has locked goes: its handles end, and those on the node above are told. -/
lemma Linked.reports_removed (linked : s.Linked)
    (checked : s.tree.checkRemove path s.locks = .ok id) (node : s.tree.get? id = some n)
    (foundAbove : s.tree.find? (Path.parent path) = some above) :
    s.Reports (s.removed id above path n.handles.keys) := by
  have wf := linked.tree
  obtain ⟨valid, notRoot, foundId, -, -, -, free⟩ := Tree.checkRemove_eq_ok_iff.mp checked
  obtain ⟨p, nodeAbove, pathAbove⟩ := wf.get?_of_find? foundAbove
  obtain ⟨n', node', pathId⟩ := wf.get?_of_find? foundId
  obtain rfl : n = n' := Option.some.inj (node.symm.trans node')
  have apart : above ≠ id := by
    rintro rfl
    obtain rfl : n = p := Option.some.inj (node.symm.trans nodeAbove)
    exact Path.parent_ne_self valid notRoot (pathAbove.symm.trans pathId)
  have listed : Path.name path ∈ p.children :=
    (wf.children above p _ nodeAbove).mpr ⟨path, id, foundId, notRoot, pathAbove.symm, rfl⟩
  -- the handles end as if the node were still there
  let closed := n.handles.keys.foldl dropStale s
  obtain ⟨tree, locks, -⟩ := foldl_dropStale_frame (s := s) n.handles.keys
  have closes := closes_dropStale linked.handle_of_session n.handles.keys
  have ended : s.Reports closed := by
    refine reports_dropStale FinMap.keys_nodup fun h mem => ?_
    obtain ⟨r, found, rfl⟩ := linked.handle_of_node id n h node (FinMap.mem_keys.mp mem)
    refine ⟨r, found, _, view?_of_node node, ?_⟩
    have nobody : (s.locks.lock r.node).holders = [] := by
      simpa [LockTable.isHeld, LockState.isHeld] using free
    simp [LockTable.isHolder, LockState.isHolder, nobody]
  refine ended.trans ?_
  let pruned : State := { closed with
    tree := s.tree.prune id above path
    locks := s.locks.erase id }
  have whole : s.removed id above path n.handles.keys =
      pruned.tellAll above (.childRemoved (Path.name path)) := by
    rw [State.removed, foldl_dropStale_with]
  have look : ∀ i, pruned.tree.get? i = if i = id then none else
      if i = above then (s.tree.get? i).map (·.dropChild (Path.name path)) else s.tree.get? i :=
    Tree.get?_prune
  have nodeAbove' : pruned.tree.get? above = some (p.dropChild (Path.name path)) := by
    rw [look, if_neg apart, if_pos rfl, nodeAbove]
    rfl
  have same : pruned.SameTables (pruned.tellAll above (.childRemoved (Path.name path))) :=
    sameTables_tellAll _
  -- handles that are left are open on other nodes
  have left : ∀ h r, closed.handles.get? h = some r →
      s.handles.get? h = some r ∧ r.node ≠ id := by
    intro h r found'
    obtain ⟨out, found⟩ := closes.handle_of found'
    exact ⟨found, fun eq => out (FinMap.mem_keys.mpr ((linked.mem_node_iff found node).mpr eq))⟩
  have holds : ∀ k h', k ≠ id →
      (pruned.tellAll above (.childRemoved (Path.name path))).locks.isHolder k h' =
        closed.locks.isHolder k h' := by
    intro k h' other
    rw [same.locks, locks]
    exact LockTable.isHolder_erase other
  rw [whole]
  refine reports_of_tellings p.handles.keys (.childRemoved (Path.name path))
    FinMap.keys_nodup same.handles (outbox_tellAll nodeAbove' _) ?_ ?_
  · intro h r found' mem
    obtain ⟨found, other⟩ := left h r found'
    obtain rfl := (linked.mem_node_iff found nodeAbove).mp (FinMap.mem_keys.mp mem)
    have seat : closed.tree.get? r.node = some p := tree ▸ nodeAbove
    rw [view?_of_node seat, view?_of_node (same.tree ▸ nodeAbove'), holds _ _ other,
      Option.bind_some, View.after?_eq_some]
    exact ⟨if_pos listed, rfl⟩
  · intro h r found' mem
    obtain ⟨found, other⟩ := left h r found'
    have elsewhere : r.node ≠ above := fun eq =>
      mem (FinMap.mem_keys.mpr ((linked.mem_node_iff found nodeAbove).mpr eq))
    refine view?_congr ?_ (holds _ _ other)
    rw [same.tree, tree, look, if_neg other, if_neg elsewhere]

/-- Reaping tells those above about each node that goes. -/
lemma Linked.reports_reapFrom (linked : s.Linked) (settled : ∀ i, (s.locks.lock i).Settled)
    (k : Nat) : s.Reports (s.reapFrom id k) := by
  induction k generalizing s id with
  | zero => exact .refl s
  | succ k ih =>
    rw [State.reapFrom]
    split
    · exact .refl s
    · rename_i path idle
      split
      · exact .refl s
      · rename_i above foundAbove
        obtain ⟨sheds, linked'⟩ := linked.removed_idle (settled id) idle foundAbove
        obtain ⟨n, node, -, -, unseated, -, -⟩ := (idleEphemeral?_eq_some path).mp idle
        have nobody : n.handles.keys = [] :=
          List.eq_nil_iff_forall_not_mem.mpr fun h mem => unseated h (FinMap.mem_keys.mp mem)
        have first := linked.reports_removed (linked.checkRemove_of_idle idle) node foundAbove
        rw [nobody] at first
        exact first.trans (ih linked' fun i => sheds.settled (settled i))

/-- The whole climb of reaping tells those above about each node that goes. -/
lemma Linked.reports_reap (linked : s.Linked) (settled : ∀ i, (s.locks.lock i).Settled)
    (id : NodeId) : s.Reports (s.reap id) := by
  unfold State.reap
  split
  · exact .refl s
  · exact linked.reports_reapFrom settled _

/-- A handle that is not involved in a lock is retired. -/
lemma Linked.reports_unseat (linked : s.Linked) (found : s.handles.get? handle = some r)
    (idle : (s.locks.lock r.node).involves handle = false) : s.Reports (s.unseat handle r) := by
  refine reports_of_close found (fun h => FinMap.get?_erase ..) rfl
    (linked.view?_of_idle found idle) fun h r' _ _ => ?_
  have look : (s.unseat handle r).tree.get? r'.node =
      if r'.node = r.node then (s.tree.get? r'.node).map (·.dropHandle handle)
      else s.tree.get? r'.node := Tree.get?_modify _ _
  rw [view?, view?, look]
  split
  case isTrue => cases s.tree.get? r'.node <;> rfl
  case isFalse => rfl

/-- A handle that is closed is retired, and those above its node are told if that goes too. -/
lemma Linked.reports_detach (linked : s.Linked) (settled : ∀ i, (s.locks.lock i).Settled)
    (found : s.handles.get? handle = some r)
    (idle : (s.locks.lock r.node).involves handle = false) : s.Reports (s.detach handle) := by
  have first := linked.reports_unseat found idle
  rw [State.detach, found]
  exact first.trans ((linked.unseat found idle).reports_reap settled r.node)

/-- Handles that leave one after another are retired. -/
lemma Leaving.reports (leaving : s.Leaving list) : s.Reports (list.foldl State.detach s) := by
  induction list generalizing s with
  | nil => exact .refl s
  | cons h rest ih =>
    obtain ⟨r, found, uninvolved⟩ := leaving.head
    have first := leaving.linked.reports_detach leaving.settled found uninvolved
    obtain ⟨lost, -, -, left⟩ := leaving.detach
    exact first.trans (ih left)

/-! ## Sessions that end -/

/-- When a session lets go of its locks, those concerned are told. -/
lemma Linked.reports_relieved (linked : s.Linked) (tidy : s.Tidy dying ∅) (ends : session ∈ dying) :
    s.Reports (s.relieved session) := by
  obtain ⟨linked₁, -⟩ := linked.surrenders tidy ends
  have seated : ∀ h ∈ s.handlesOf session, ∃ r, s.handles.get? h = some r :=
    linked.seated_handlesOf
  have first := linked.reports_surrendered .empty seated
  have cleared : (s.surrendered .empty (s.handlesOf session)).2.Reports
      ((s.surrendered .empty (s.handlesOf session)).2.clearNotes session) :=
    reports_of_quiet rfl rfl fun _ _ _ => rfl
  exact first.trans (cleared.trans ((linked₁.clearNotes session).reports_served _))

/-- When a session ends, those concerned are told. -/
lemma Linked.reports_teardown (linked : s.Linked) (tidy : s.Tidy dying ∅) (ends : session ∈ dying) :
    s.Reports (s.teardown session) := by
  obtain ⟨-, leaving, -⟩ := linked.relieved tidy ends
  refine (linked.reports_relieved tidy ends).trans (leaving.reports.trans ?_)
  exact reports_of_quiet rfl rfl fun _ _ _ => rfl

/-- When sessions end one after another, those concerned are told. -/
lemma Linked.reports_teardownAll {ids : List SessionId} (linked : s.Linked)
    (tidy : s.Tidy {i | i ∈ ids} ∅) (apart : ids.Nodup) :
    s.Reports (ids.foldl State.teardown s) := by
  refine linked.teardown_induction .refl (fun _ _ _ => .trans) ?_ tidy apart fun _ mem => mem
  exact fun s dying i linked tidy ends => linked.reports_teardown tidy ends

/-! ## Whole operations -/

/-- A release is told to the holder and to those served. -/
lemma Linked.reports_released (linked : s.Linked) (found : s.handles.get? handle = some r)
    (held : s.locks.isHolder r.node handle = true) : s.Reports (s.released handle r) := by
  let left := (s.strip r.node handle).noteReleased r.session ⟨r.node, handle⟩
  have same := left.sameTables_tell handle .lockReleased
  have linked' : left.Linked :=
    (linked.strip r.node handle).noteReleased r.session ⟨r.node, handle⟩
  have first : s.Reports (left.tell handle .lockReleased) :=
    linked.reports_of_release found held same.tree same.locks same.handles
      (left.outbox_tell handle .lockReleased)
  exact first.trans ((linked'.of_sameTables same).reports_promote r.node)

/-- Leaving a lock or its queue tells those concerned. -/
lemma Linked.reports_vacated (linked : s.Linked) (found : s.handles.get? handle = some r) :
    s.Reports (s.vacated handle r) := by
  unfold State.vacated
  split
  case isTrue held => exact linked.reports_released found held
  case isFalse idle =>
    split
    case isTrue =>
      exact (reports_strip (Bool.eq_false_iff.mpr idle)).trans
        ((linked.strip r.node handle).reports_promote r.node)
    case isFalse => exact .refl s

/-- Closing a handle tells those concerned. -/
lemma Sound.reports_closed (sound : s.Sound) (found : s.handles.get? handle = some r) :
    s.Reports (s.closed handle r) := by
  have vacated := sound.vacated found
  have found' : (s.vacated handle r).handles.get? handle = some r := by
    rw [(s.frame_vacated handle r).2.1]
    exact found
  exact (sound.linked.reports_vacated found).trans (vacated.linked.reports_detach vacated.settled
    found' (sound.linked.not_involves_vacated found))

/-- Deleting a node tells those on it and above it. -/
lemma Sound.reports_deleted (sound : s.Sound) (checked : s.tree.checkRemove path s.locks = .ok id)
    (node : s.tree.get? id = some n) (foundAbove : s.tree.find? (Path.parent path) = some above) :
    s.Reports (s.deleted id above path n) := by
  have removed := sound.removed checked node foundAbove
  exact (sound.linked.reports_removed checked node foundAbove).trans
    (removed.linked.reports_reap removed.settled above)

/-- The end of all that have expired tells those concerned. -/
lemma Sound.reports_expired (sound : s.Sound) (now : Instant) : s.Reports (s.expired now) := by
  obtain ⟨linked, tidy⟩ := sound.ticked now
  have first : s.Reports (s.ticked now) := reports_of_quiet rfl rfl fun _ _ _ => rfl
  exact first.trans (linked.reports_teardownAll tidy (s.sessions.nodup_tick now))

/-- The end of a session by request tells those concerned. -/
lemma Sound.reports_destroyed (sound : s.Sound) (session : SessionId) :
    s.Reports ((s.marked session).teardown session) := by
  obtain ⟨linked, tidy⟩ := sound.marked session
  have first : s.Reports (s.marked session) := reports_of_quiet rfl rfl fun _ _ _ => rfl
  exact first.trans (linked.reports_teardown tidy rfl)

end State

end Coordination
