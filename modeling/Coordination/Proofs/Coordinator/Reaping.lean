import Coordination.Proofs.Coordinator.StoreIndependence
import Coordination.Proofs.Coordinator.Primitives
import Coordination.Proofs.Coordinator.Ephemeral
import Coordination.Proofs.Coordinator.HandleViews
import Coordination.Proofs.Tree.Changes

/-!
# The walk upwards

`reap` removes a node that is idle and ephemeral, then looks at the node above, and so on. Which
nodes go can be read off the tables it starts from: those of the longest `Climb`, on which every
node is ephemeral and used by nobody but the one below it. `Trail` is what the walk keeps on its
way, and says what the tables are like when part of a climb has gone.
-/

namespace Coordination

namespace Tree

/-- A node without the name of one that was below it. -/
def bereft (t : Tree) (below : Option NodeId) (n : Node) : Node :=
  match below.bind t.get? with
  | none => n
  | some m => n.dropChild (Path.name m.path)

variable {t : Tree} {below : Option NodeId} {id child : NodeId} {n : Node}

/-- Where no child has gone nothing is missing. -/
@[simp] lemma bereft_none : t.bereft none n = n := rfl

/-- Such a node is otherwise as it was. -/
lemma bereft_frame : (t.bereft below n).path = n.path ∧ (t.bereft below n).isDir = n.isDir ∧
    (t.bereft below n).ephemeral = n.ephemeral ∧ (t.bereft below n).attrs = n.attrs ∧
    (t.bereft below n).handles = n.handles := by
  unfold bereft
  split <;> exact ⟨rfl, rfl, rfl, rfl, rfl⟩

/-- The parent of a node is found under the path above it. -/
lemma WellFormed.parent?_iff (wf : t.WellFormed) : t.parent? child = some id ↔
    ∃ m, t.get? child = some m ∧ m.path ≠ Path.root ∧ t.find? (Path.parent m.path) = some id := by
  constructor
  · intro found
    obtain ⟨m, node, -⟩ := Option.bind_eq_some_iff.mp found
    rw [parent?_of_get? node] at found
    split at found
    case isTrue => cases found
    case isFalse other => exact ⟨m, node, (wf.path_eq_root_iff node).not.mpr other, found⟩
  · rintro ⟨m, node, notRoot, found⟩
    rw [parent?_of_get? node, if_neg ((wf.path_eq_root_iff node).not.mp notRoot)]
    exact found

/-- After a removal, the path of the node is the only one that is not found any more. -/
lemma WellFormed.find?_prune_iff (wf : t.WellFormed) (node : t.get? id = some n) {above i : NodeId}
    {path : String} : (t.prune id above n.path).find? path = some i ↔
      t.find? path = some i ∧ i ≠ id := by
  rw [find?_prune]
  split
  case isTrue eq =>
    rw [eq, wf.find?_path node]
    simp [eq_comm]
  case isFalse other =>
    rw [iff_self_and]
    rintro found rfl
    obtain ⟨n', node', path⟩ := wf.get?_of_find? found
    rw [node] at node'
    rw [Option.some.inj node', path] at other
    exact other rfl

/-- A directory has no names if it is above no node. -/
lemma WellFormed.childless_iff (wf : t.WellFormed) (node : t.get? id = some n) :
    (∀ name, name ∉ n.children) ↔ ∀ child, t.parent? child ≠ some id := by
  rw [← not_exists, ← wf.hasChild_iff node, ← not_exists]
  refine not_congr (exists_congr fun child => ?_)
  rw [wf.parent?_iff]
  refine exists_congr fun m => and_congr_right fun _ => and_congr_right fun _ => ?_
  constructor
  · intro path
    rw [path]
    exact wf.find?_path node
  · intro found
    obtain ⟨n', node', path⟩ := wf.get?_of_find? found
    rw [node] at node'
    rw [Option.some.inj node', path]

end Tree

namespace State

/-- An ephemeral node that nobody uses, but perhaps one node below it. -/
structure Spent (s : State) (below : Option NodeId) (id : NodeId) : Prop where
  ephemeral : ∃ n, s.tree.get? id = some n ∧ n.ephemeral = true
  closed : ¬ s.HasHandle id
  free : (s.locks.lock id).holders = []
  only : ∀ child, s.tree.parent? child = some id ↔ below = some child

/-- A chain of nodes, each right above the one before, that nobody else uses. The last of them and
the node above it come out at the end. -/
inductive Climb (s : State) :
    Option NodeId → NodeId → List NodeId → Option NodeId → NodeId → Prop
  | stop (below : Option NodeId) (id : NodeId) : Climb s below id [] below id
  | step {below last : Option NodeId} {id above top : NodeId} {chain : List NodeId}
      (spent : s.Spent below id) (parent : s.tree.parent? id = some above)
      (rest : Climb s (some id) above chain last top) : Climb s below id (id :: chain) last top

/-- What the handles on its parent are told when a node goes. -/
def parting (s : State) (id : NodeId) : List Command :=
  match s.tree.get? id, (s.tree.parent? id).bind s.tree.get? with
  | some n, some p => p.handles.keys.flatMap (telling s.handles (.childRemoved (Path.name n.path)))
  | _, _ => []

/-- The nodes of a chain have gone with their locks, one after another, and nothing else has changed
but that the node above the last one has lost its name. -/
structure Reaped (s : State) (chain : List NodeId) (last : Option NodeId) (top : NodeId)
    (s' : State) : Prop where
  gone : ∀ i ∈ chain, s'.tree.get? i = none ∧ s'.locks.get? i = none
  apart : chain.Nodup
  outside : top ∉ chain
  node : ∀ i ∉ chain, i ≠ top → s'.tree.get? i = s.tree.get? i
  top : s'.tree.get? top = (s.tree.get? top).map (s.tree.bereft last)
  index : ∀ path i, s'.tree.find? path = some i ↔ s.tree.find? path = some i ∧ i ∉ chain
  next : s'.tree.next = s.tree.next
  lock : ∀ i ∉ chain, s'.locks.get? i = s.locks.get? i
  sessions : s'.sessions = s.sessions
  handles : s'.handles = s.handles
  store : s'.store = s.store
  outbox : s'.outbox = s.outbox ++ chain.flatMap s.parting

/-- The walk from `start` has removed the nodes of a chain and looks at `top` next. -/
structure Trail (s : State) (start : NodeId) (chain : List NodeId) (last : Option NodeId)
    (top : NodeId) (s' : State) : Prop where
  climb : s.Climb none start chain last top
  reaped : s.Reaped chain last top s'
  linked : s'.Linked
  settled : ∀ i, (s'.locks.lock i).Settled

variable {s s' : State} {id above start top top' child i : NodeId} {chain chain' : List NodeId}
variable {below last last' : Option NodeId} {path : String} {n : Node}

/-! ## Climbs -/

/-- A climb goes on to the node above if that one is spent as well. -/
lemma Climb.concat (climb : s.Climb below id chain last top) (spent : s.Spent last top)
    (parent : s.tree.parent? top = some above) :
    s.Climb below id (chain ++ [top]) (some top) above := by
  induction climb with
  | stop => exact .step spent parent (.stop ..)
  | step spent' parent' _ ih => exact .step spent' parent' (ih spent parent)

/-- A climb that cannot go on contains every other one from the same node. -/
lemma Climb.prefix (climb : s.Climb below id chain last top) (ends : ¬ s.Spent last top)
    (other : s.Climb below id chain' last' top') : chain' <+: chain := by
  induction climb generalizing chain' with
  | stop =>
    cases other with
    | stop => exact List.prefix_rfl
    | step spent => exact absurd spent ends
  | step spent parent rest ih =>
    cases other with
    | stop => exact List.nil_prefix
    | step spent' parent' rest' =>
      obtain rfl := Option.some.inj (parent.symm.trans parent')
      exact (List.prefix_cons_inj _).mpr (ih ends rest')

/-- Above a node of a climb is another one of it, unless it is the last. -/
lemma Climb.above_mem (climb : s.Climb below id chain last top) (mem : child ∈ chain)
    (parent : s.tree.parent? child = some i) : i ∈ chain ∨ i = top ∧ last = some child := by
  induction climb with
  | stop => cases mem
  | step _ parent' rest ih =>
    rcases List.mem_cons.mp mem with rfl | later
    · obtain rfl := Option.some.inj (parent.symm.trans parent')
      cases rest with
      | stop => exact .inr ⟨rfl, rfl⟩
      | step => exact .inl (List.mem_cons_of_mem _ (List.mem_cons_self ..))
    · exact (ih later).imp_left (List.mem_cons_of_mem _)

/-- The last node of a climb is right below the one where it stops. -/
lemma Climb.last_mem (climb : s.Climb below id chain last top) (eq : last = some child) :
    chain = [] ∧ below = last ∨ child ∈ chain ∧ s.tree.parent? child = some top := by
  induction climb with
  | stop => exact .inl ⟨rfl, rfl⟩
  | step _ parent rest ih =>
    refine .inr ?_
    rcases ih eq with ⟨nil, same⟩ | ⟨mem, below⟩
    · subst nil
      cases rest
      obtain rfl := Option.some.inj eq
      exact ⟨List.mem_cons_self .., parent⟩
    · exact ⟨List.mem_cons_of_mem _ mem, below⟩

/-! ## One step of the walk -/

/-- A node is idle and ephemeral if it is spent and has nothing below it. -/
lemma Linked.spent_iff (linked : s.Linked) :
    s.Spent none id ↔ ∃ path, s.idleEphemeral? id = some path := by
  constructor
  · rintro ⟨⟨n, node, ephemeral⟩, closed, free, only⟩
    rw [linked.hasHandle_iff node] at closed
    refine ⟨n.path, (idleEphemeral?_eq_some _).mpr ⟨n, node, rfl, ephemeral,
      not_exists.mp closed, ?_, free⟩⟩
    exact (linked.tree.childless_iff node).mpr fun child eq => nomatch (only child).mp eq
  · rintro ⟨path, idle⟩
    obtain ⟨n, node, -, ephemeral, closed, childless, free⟩ := (idleEphemeral?_eq_some path).mp idle
    refine ⟨⟨n, node, ephemeral⟩, ?_, free, fun child => ?_⟩
    · rw [linked.hasHandle_iff node, not_exists]
      exact closed
    · exact iff_of_false ((linked.tree.childless_iff node).mp childless child) nofun

/-- A node that is left is where it was. -/
lemma Reaped.path_eq (reaped : s.Reaped chain last top s') (out : i ∉ chain) :
    (s'.tree.get? i).map Node.path = (s.tree.get? i).map Node.path := by
  by_cases eq : i = top
  · rw [eq, reaped.top, Option.map_map]
    exact congrArg (Option.map · _) (funext fun _ => Tree.bereft_frame.1)
  · rw [reaped.node i out eq]

/-- What has gone are the nodes of the chain. -/
lemma Reaped.mem_iff (reaped : s.Reaped chain last top s') (node : s.tree.get? i = some n) :
    i ∈ chain ↔ s'.tree.get? i = none := by
  refine ⟨fun mem => (reaped.gone i mem).1, fun gone => ?_⟩
  by_contra out
  have same := reaped.path_eq out
  rw [gone, node] at same
  cases same

/-- The nodes that are left are one above the other as before. -/
lemma Reaped.parent?_iff (reaped : s.Reaped chain last top s') (wf : s.tree.WellFormed)
    (wf' : s'.tree.WellFormed) : s'.tree.parent? child = some i ↔
      s.tree.parent? child = some i ∧ child ∉ chain ∧ i ∉ chain := by
  rw [wf.parent?_iff, wf'.parent?_iff]
  by_cases out : child ∈ chain
  · simp [(reaped.gone child out).1, out]
  · have same := reaped.path_eq out
    constructor
    · rintro ⟨m', node', notRoot, found⟩
      obtain ⟨m, node, path⟩ := Option.map_eq_some_iff.mp (same.symm.trans (by rw [node']; rfl))
      rw [← path] at notRoot found
      obtain ⟨found, kept⟩ := (reaped.index _ _).mp found
      exact ⟨⟨m, node, notRoot, found⟩, out, kept⟩
    · rintro ⟨⟨m, node, notRoot, found⟩, -, kept⟩
      obtain ⟨m', node', path⟩ := Option.map_eq_some_iff.mp (same.trans (by rw [node]; rfl))
      rw [← path] at notRoot found
      exact ⟨m', node', notRoot, (reaped.index _ _).mpr ⟨found, kept⟩⟩

/-- Nothing has been reaped. -/
lemma Reaped.refl (s : State) (start : NodeId) : s.Reaped [] none start s where
  gone := fun _ mem => nomatch mem
  apart := List.nodup_nil
  outside := List.not_mem_nil
  node := fun _ _ _ => rfl
  top := by
    cases s.tree.get? start <;> rfl
  index := by simp
  next := rfl
  lock := fun _ _ => rfl
  sessions := rfl
  handles := rfl
  store := rfl
  outbox := (List.append_nil _).symm

/-- What is idle on the way is what was spent at the outset. -/
lemma Trail.spent_iff (trail : s.Trail start chain last top s') (linked : s.Linked) :
    s'.Spent none top ↔ s.Spent last top := by
  obtain ⟨climb, reaped, linked', -⟩ := trail
  have only : (∀ child, s'.tree.parent? child = some top ↔ none = some child) ↔
      ∀ child, s.tree.parent? child = some top ↔ last = some child := by
    refine forall_congr' fun child => ?_
    have kept : last = some child → s.tree.parent? child = some top ∧ child ∈ chain := by
      intro eq
      rcases climb.last_mem eq with ⟨-, none⟩ | ⟨mem, parent⟩
      · exact nomatch none.trans eq
      · exact ⟨parent, mem⟩
    have gone : s.tree.parent? child = some top → child ∈ chain → last = some child :=
      fun parent mem => ((climb.above_mem mem parent).resolve_left reaped.outside).2
    rw [reaped.parent?_iff linked.tree linked'.tree]
    simp only [reduceCtorEq, iff_false]
    constructor
    · refine fun left => ⟨fun parent => ?_, fun eq => (kept eq).1⟩
      by_contra other
      exact left ⟨parent, fun mem => other (gone parent mem), reaped.outside⟩
    · rintro same ⟨parent, out, -⟩
      exact out (kept (same.mp parent)).2
  have ephemeral : (∃ n, s'.tree.get? top = some n ∧ n.ephemeral = true) ↔
      ∃ n, s.tree.get? top = some n ∧ n.ephemeral = true := by
    rw [reaped.top]
    cases s.tree.get? top <;> simp [Tree.bereft_frame.2.2.1]
  have closed : s'.HasHandle top ↔ s.HasHandle top := by
    rw [HasHandle, reaped.handles]
    rfl
  have free : s'.locks.lock top = s.locks.lock top := by
    rw [LockTable.lock, reaped.lock top reaped.outside, LockTable.lock]
  constructor
  · rintro ⟨h₁, h₂, h₃, h₄⟩
    exact ⟨ephemeral.mp h₁, closed.not.mp h₂, free ▸ h₃, only.mp h₄⟩
  · rintro ⟨h₁, h₂, h₃, h₄⟩
    exact ⟨ephemeral.mpr h₁, closed.not.mpr h₂, free ▸ h₃, only.mpr h₄⟩

/-- Those are told of a removal who have a handle on the node above. -/
lemma outbox_removed {p : Node} (nodeAbove : s.tree.get? above = some p) (apart : above ≠ id) :
    (s.removed id above path []).outbox =
      s.outbox ++ p.handles.keys.flatMap (telling s.handles (.childRemoved (Path.name path))) := by
  let pruned : State := { s with tree := s.tree.prune id above path, locks := s.locks.erase id }
  have there : pruned.tree.get? above = some (p.dropChild (Path.name path)) := by
    refine (Tree.get?_prune above).trans ?_
    rw [if_neg apart, if_pos rfl, nodeAbove]
    rfl
  exact (outbox_tellAll there (.childRemoved (Path.name path))).trans rfl

/-- One more node goes. -/
lemma Reaped.concat (reaped : s.Reaped chain last top s') (wf : s.tree.WellFormed)
    (wf' : s'.tree.WellFormed) (node' : s'.tree.get? top = some n) (notRoot : n.path ≠ Path.root)
    (foundAbove : s'.tree.find? (Path.parent n.path) = some above) :
    s.Reaped (chain ++ [top]) (some top) above (s'.removed top above n.path []) := by
  let pruned : State :=
    { s' with tree := s'.tree.prune top above n.path, locks := s'.locks.erase top }
  have same : pruned.SameTables (s'.removed top above n.path []) := sameTables_tellAll _
  have foundTop := wf'.find?_path node'
  obtain ⟨foundAbove₀, outAbove⟩ := (reaped.index _ _).mp foundAbove
  obtain ⟨p, nodeAbove, pathAbove⟩ := wf.get?_of_find? foundAbove₀
  have apart : above ≠ top := by
    rintro rfl
    obtain ⟨n', node₂, path₂⟩ := wf'.get?_of_find? foundAbove
    obtain rfl : n = n' := Option.some.inj (node'.symm.trans node₂)
    exact Path.parent_ne_self (wf'.valid _ _ foundTop) notRoot path₂.symm
  have nodeAbove' : s'.tree.get? above = some p :=
    (reaped.node above outAbove apart).trans nodeAbove
  obtain ⟨m, node, path⟩ := Option.map_eq_some_iff.mp
    ((reaped.path_eq reaped.outside).symm.trans (by rw [node']; rfl))
  have parent : s.tree.parent? top = some above :=
    wf.parent?_iff.mpr ⟨m, node, path ▸ notRoot, path ▸ foundAbove₀⟩
  constructor
  case gone =>
    intro i mem
    rw [same.tree, same.locks]
    by_cases eq : i = top
    · exact ⟨(Tree.get?_prune i).trans (if_pos eq), (FinMap.get?_erase ..).trans (if_pos eq)⟩
    · obtain ⟨absent, unlocked⟩ := reaped.gone i ((List.mem_append.mp mem).resolve_right (by simpa))
      refine ⟨?_, (FinMap.get?_erase ..).trans ((if_neg eq).trans unlocked)⟩
      rw [Tree.get?_prune, if_neg eq, absent]
      split <;> rfl
  case apart =>
    rw [← List.concat_eq_append]
    exact reaped.apart.concat reaped.outside
  case outside => simp [outAbove, apart]
  case node =>
    intro i out other
    obtain ⟨out, ne⟩ : i ∉ chain ∧ i ≠ top := by simpa using out
    rw [same.tree, Tree.get?_prune, if_neg ne, if_neg other, reaped.node i out ne]
  case top =>
    rw [same.tree, Tree.get?_prune, if_neg apart, if_pos rfl, nodeAbove', nodeAbove]
    simp [Tree.bereft, node, path]
  case index =>
    intro path' i
    rw [same.tree, wf'.find?_prune_iff node', reaped.index, List.mem_append, List.mem_singleton,
      not_or, and_assoc]
  case next => exact (congrArg Tree.next same.tree).trans reaped.next
  case lock =>
    intro i out
    obtain ⟨out, ne⟩ : i ∉ chain ∧ i ≠ top := by simpa using out
    rw [same.locks]
    exact (FinMap.get?_erase ..).trans ((if_neg ne).trans (reaped.lock i out))
  case sessions => exact same.sessions.trans reaped.sessions
  case handles => exact same.handles.trans reaped.handles
  case store => exact same.store.trans reaped.store
  case outbox =>
    have told : s.parting top =
        p.handles.keys.flatMap (telling s.handles (.childRemoved (Path.name n.path))) := by
      rw [parting, node, parent, Option.bind_some, nodeAbove, ← path]
    rw [outbox_removed nodeAbove' apart, reaped.outbox, reaped.handles, List.flatMap_append,
      List.append_assoc, List.flatMap_cons, List.flatMap_nil, List.append_nil, told]

/-- The walk makes a step. -/
lemma Trail.step (trail : s.Trail start chain last top s') (linked : s.Linked)
    (idle : s'.idleEphemeral? top = some path)
    (foundAbove : s'.tree.find? (Path.parent path) = some above) :
    s.Trail start (chain ++ [top]) (some top) above (s'.removed top above path []) := by
  have spent := (trail.spent_iff linked).mp (trail.linked.spent_iff.mpr ⟨path, idle⟩)
  obtain ⟨n, node', -⟩ := (idleEphemeral?_eq_some path).mp idle
  obtain ⟨rfl, -, notRoot⟩ := trail.linked.below_of_idle idle node'
  obtain ⟨sheds, linked'⟩ := trail.linked.removed_idle (trail.settled top) idle foundAbove
  obtain ⟨parent, -⟩ := (trail.reaped.parent?_iff linked.tree trail.linked.tree).mp
    (trail.linked.tree.parent?_iff.mpr ⟨n, node', notRoot, foundAbove⟩)
  exact ⟨trail.climb.concat spent parent,
    trail.reaped.concat linked.tree trail.linked.tree node' notRoot foundAbove, linked',
    fun i => sheds.settled (trail.settled i)⟩

/-! ## The whole walk -/

/-- The links between the tables do not depend on the store. -/
lemma Linked.withStore (linked : s.Linked) (store : Store) : (s.withStore store).Linked := by
  obtain ⟨a, b, c, d, e, f, g, h, i, j⟩ := linked
  exact ⟨a, b, c, d, e, f, g, h, i, j⟩

/-- A node that is in use is not removed, however far the walk might go. -/
lemma reapFrom_of_busy (busy : s.idleEphemeral? id = none) (k : Nat) : s.reapFrom id k = s := by
  cases k with
  | zero => rfl
  | succ k => rw [State.reapFrom, busy]

/-- An idle ephemeral node goes, and the climb goes on above it. -/
lemma reapFrom_of_idle (idle : s.idleEphemeral? id = some path)
    (foundAbove : s.tree.find? (Path.parent path) = some above) (k : Nat) :
    s.reapFrom id (k + 1) = (s.removed id above path []).reapFrom above k := by
  rw [State.reapFrom, idle]
  dsimp only
  rw [foundAbove]

/-- The walk goes on until it finds a node in use, for which it need not be allowed more steps than
the path of the first node has components, nor more than there are nodes to remove. -/
lemma Trail.reapFrom (trail : s.Trail start chain last top s') (linked : s.Linked) {k : Nat}
    (node' : s'.tree.get? top = some n) (enough : n.path ≠ Path.root → Path.depth n.path ≤ k) :
    ∃ more last' top', s.Trail start (chain ++ more) last' top' (s'.reapFrom top k) ∧
      (s'.reapFrom top k).idleEphemeral? top' = none ∧
      ∀ j ≥ more.length, s'.reapFrom top j = s'.reapFrom top k := by
  induction k generalizing s' chain last top n with
  | zero =>
    have busy : s'.idleEphemeral? top = none := by
      by_contra idle
      obtain ⟨path, idle⟩ := Option.ne_none_iff_exists'.mp idle
      obtain ⟨rfl, valid, notRoot⟩ := trail.linked.below_of_idle idle node'
      have enough := enough notRoot
      have deep := Path.depth_pos valid notRoot
      omega
    exact ⟨[], last, top, by rwa [List.append_nil], busy, fun j _ => reapFrom_of_busy busy j⟩
  | succ k ih =>
    cases idle : s'.idleEphemeral? top with
    | none =>
      rw [reapFrom_of_busy idle (k + 1)]
      exact ⟨[], last, top, by rwa [List.append_nil], idle, fun j _ => reapFrom_of_busy idle j⟩
    | some path =>
      obtain ⟨rfl, valid, notRoot⟩ := trail.linked.below_of_idle idle node'
      obtain ⟨above, foundAbove⟩ :=
        trail.linked.find?_above (trail.linked.checkRemove_of_idle idle)
      have trail' := trail.step linked idle foundAbove
      obtain ⟨foundAbove₀, -⟩ := (trail.reaped.index _ _).mp foundAbove
      obtain ⟨p, nodeAbove, pathAbove⟩ := trail'.linked.tree.get?_of_find?
        ((trail'.reaped.index _ _).mpr ⟨foundAbove₀, trail'.reaped.outside⟩)
      rw [reapFrom_of_idle idle foundAbove]
      obtain ⟨more, last', top', trail'', busy, soon⟩ := ih trail' nodeAbove fun below => by
        have enough := enough notRoot
        rw [pathAbove] at below ⊢
        -- the one above has one component less, or it is the root, which is never idle
        have less := Path.depth_parent_lt valid notRoot below
        omega
      refine ⟨top :: more, last', top', by rwa [List.append_assoc] at trail'', busy, ?_⟩
      rintro (_ | j) length
      · cases length
      · rw [reapFrom_of_idle idle foundAbove]
        exact soon j (Nat.le_of_succ_le_succ length)

/-- The walk from a node ends where a node is in use, and would end there if it were allowed fewer
steps, as long as they suffice for the nodes to remove. -/
lemma Linked.trail_reap (linked : s.Linked) (settled : ∀ i, (s.locks.lock i).Settled)
    (start : NodeId) : ∃ chain last top, s.Trail start chain last top (s.reap start) ∧
      (s.reap start).idleEphemeral? top = none ∧
      ∀ k ≥ chain.length, s.reapFrom start k = s.reap start := by
  have trail : s.Trail start [] none start s := ⟨.stop none start, .refl s start, linked, settled⟩
  cases found : s.tree.get? start with
  | none =>
    have busy : s.idleEphemeral? start = none := by
      rw [idleEphemeral?, found]
      rfl
    rw [State.reap, found]
    exact ⟨[], none, start, trail, busy, fun k _ => reapFrom_of_busy busy k⟩
  | some n =>
    rw [State.reap, found]
    exact trail.reapFrom linked found fun _ => le_rfl

/-- On linked tables with settled locks, the walk upwards from a node comes to its end without an
interruption and without a call to the store, and no longer walk would remove more. The nodes that
go are those of the longest climb from that node; `Reaped` says that nothing else changes and what
is announced. -/
theorem Linked.reaps_longest_climb (linked : s.Linked)
    (settled : ∀ i, (s.locks.lock i).Settled) (start : NodeId) :
    (∀ st, (Op.reap start).run (s.withStore st) = (.ok (), (s.reap start).withStore st)) ∧
    ∃ chain last top, s.Climb none start chain last top ∧
      (∀ chain' last' top', s.Climb none start chain' last' top' → chain' <+: chain) ∧
      s.Reaped chain last top (s.reap start) ∧ (s.reap start).idleEphemeral? top = none ∧
      ∀ k ≥ chain.length, ∀ st,
        (Op.reapFrom k start).run (s.withStore st) = (.ok (), (s.reap start).withStore st) := by
  obtain ⟨chain, last, top, trail, busy, soon⟩ := linked.trail_reap settled start
  have ends : ¬ s.Spent last top := by
    rw [← trail.spent_iff linked, trail.linked.spent_iff, busy]
    exact nofun
  refine ⟨fun st => ?_, chain, last, top, trail.climb, ?_, trail.reaped, busy,
    fun k enough st => ?_⟩
  · rw [Op.run_reap (linked.withStore st) settled]
    exact congrArg (Prod.mk _) (blind_reap start s st)
  · exact fun chain' last' top' other => trail.climb.prefix ends other
  · rw [Op.run_reapFrom (linked.withStore st) settled, ← soon k enough]
    exact congrArg (Prod.mk _) (blind_reapFrom start k s st)

end State

namespace Coordinator

/-- The last handle of `nested` has been closed, and it remains to see what else goes. -/
def abandoned : State := (after nested).state.unseat ⟨3⟩ ⟨⟨2⟩, ⟨4⟩, .none, .process "b"⟩

/-- Three abandoned directories go, one above the other. -/
theorem longest_climb_abandoned : ∃ chain last top, abandoned.Climb none ⟨4⟩ chain last top ∧
    (∀ chain' last' top', abandoned.Climb none ⟨4⟩ chain' last' top' → chain' <+: chain) ∧
    abandoned.Reaped chain last top (abandoned.reap ⟨4⟩) ∧
    ∀ id ∈ [⟨2⟩, ⟨3⟩, ⟨4⟩], id ∈ chain := by
  have reached : (after nested).Reachable ∅ := reachable_after nested
  have sound := reached.sound
  have open' : (after nested).state.handles.get? ⟨3⟩ =
      some ⟨⟨2⟩, ⟨4⟩, .none, .process "b"⟩ := by
    decide +kernel
  have idle : ((after nested).state.locks.lock ⟨4⟩).involves ⟨3⟩ = false := by decide +kernel
  have linked : abandoned.Linked := sound.linked.unseat open' idle
  have settled : ∀ i, (abandoned.locks.lock i).Settled :=
    fun i => sound.tidy.settled i (Set.notMem_empty i)
  obtain ⟨-, chain, last, top, climb, longest, reaped, -⟩ := linked.reaps_longest_climb settled ⟨4⟩
  have there : ∀ id ∈ [(⟨2⟩ : NodeId), ⟨3⟩, ⟨4⟩], (abandoned.tree.get? id).isSome = true := by
    decide +kernel
  have gone : ∀ id ∈ [(⟨2⟩ : NodeId), ⟨3⟩, ⟨4⟩], (abandoned.reap ⟨4⟩).tree.get? id = none := by
    decide +kernel
  refine ⟨chain, last, top, climb, longest, reaped, fun id mem => ?_⟩
  obtain ⟨n, node⟩ := Option.isSome_iff_exists.mp (there id mem)
  exact (reaped.mem_iff node).mpr (gone id mem)

end Coordinator

end Coordination
