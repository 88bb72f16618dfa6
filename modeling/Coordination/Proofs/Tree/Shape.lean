import Coordination.Proofs.Lock.Table
import Coordination.Proofs.Path
import Coordination.Tree.Basic

/-!
# The shape of the namespace

A tree is `WellFormed` if index and nodes agree, every node but the root has a directory above it,
and directories know their children by name. `checkCreate` and `checkRemove` decide when `create`
and `remove` succeed; what these make of a tree is `grow` and `prune`, and both keep it well formed.
-/

namespace Coordination

/-- Nodes that differ at most in their attributes and handles. -/
def Node.SameShape (n n' : Node) : Prop :=
  n'.path = n.path ∧ n'.isDir = n.isDir ∧ n'.ephemeral = n.ephemeral ∧ n'.children = n.children

/-- Setting an attribute keeps the shape of a node. -/
lemma Node.sameShape_setAttr (name : String) (value : Bytes) (n : Node) :
    n.SameShape (n.setAttr name value) := ⟨rfl, rfl, rfl, rfl⟩

/-- Dropping an attribute keeps the shape of a node. -/
lemma Node.sameShape_dropAttr (name : String) (n : Node) : n.SameShape (n.dropAttr name) :=
  ⟨rfl, rfl, rfl, rfl⟩

namespace Tree

/-- Index and nodes agree, and so do parents and children. -/
structure WellFormed (t : Tree) : Prop where
  index_iff : ∀ path id, t.find? path = some id ↔ ∃ n, t.get? id = some n ∧ n.path = path
  valid : ∀ path id, t.find? path = some id → Path.isValid path = true
  root : ∃ n, t.get? .root = some n ∧ n.path = Path.root ∧ n.isDir = true ∧ n.ephemeral = false
  parent : ∀ path id, t.find? path = some id → path ≠ Path.root →
    ∃ above p, t.find? (Path.parent path) = some above ∧ t.get? above = some p ∧ p.isDir = true
  children : ∀ id n name, t.get? id = some n →
    (name ∈ n.children ↔ ∃ path child, t.find? path = some child ∧ path ≠ Path.root ∧
      Path.parent path = n.path ∧ Path.name path = name)
  fresh : ∀ id n, t.get? id = some n → id < t.next

/-- A tree with a new node below `above`. -/
def grow (t : Tree) (above : NodeId) (path : String) (isDir ephemeral : Bool) : Tree where
  nodes := (t.nodes.modify above (·.addChild (Path.name path))).insert t.next
    (.new path isDir ephemeral)
  index := t.index.insert path t.next
  next := t.next.next

/-- A tree without the node `id`, which was below `above`. -/
def prune (t : Tree) (id above : NodeId) (path : String) : Tree :=
  { t with
    nodes := (t.nodes.erase id).modify above (·.dropChild (Path.name path))
    index := t.index.erase path }

variable {t : Tree} {id above : NodeId} {path : String} {n p : Node}

/-! ## Look-ups -/

/-- The nodes after a change to one of them. -/
@[grind =] lemma get?_modify (f : Node → Node) (id' : NodeId) :
    (t.modify id f).get? id' = if id' = id then (t.get? id').map f else t.get? id' :=
  FinMap.get?_modify ..

/-- A change to a node moves no path. -/
@[grind =] lemma find?_modify (f : Node → Node) (path : String) :
    (t.modify id f).find? path = t.find? path := rfl

/-- The nodes after one was created. -/
@[grind =] lemma get?_grow (isDir ephemeral : Bool) (id' : NodeId) :
    (t.grow above path isDir ephemeral).get? id' =
      if id' = t.next then some (.new path isDir ephemeral)
      else if id' = above then (t.get? id').map (·.addChild (Path.name path)) else t.get? id' := by
  rw [get?, grow, FinMap.get?_insert, FinMap.get?_modify]
  rfl

/-- The paths after a node was created. -/
@[grind =] lemma find?_grow (isDir ephemeral : Bool) (path' : String) :
    (t.grow above path isDir ephemeral).find? path' =
      if path' = path then some t.next else t.find? path' :=
  FinMap.get?_insert ..

/-- The nodes after one was removed. -/
@[grind =] lemma get?_prune (id' : NodeId) :
    (t.prune id above path).get? id' =
      if id' = id then none
      else if id' = above then (t.get? id').map (·.dropChild (Path.name path)) else t.get? id' := by
  rw [get?, prune, FinMap.get?_modify, FinMap.get?_erase]
  split <;> split <;> rfl

/-- The paths after a node was removed. -/
@[grind =] lemma find?_prune (path' : String) :
    (t.prune id above path).find? path' = if path' = path then none else t.find? path' :=
  FinMap.get?_erase ..

/-- The identifier of a node that was removed is not given out again. -/
@[grind =] lemma next_prune : (t.prune id above path).next = t.next := rfl

namespace WellFormed

variable (wf : t.WellFormed)
include wf

/-- Every node is found under its path. -/
lemma find?_path (found : t.get? id = some n) : t.find? n.path = some id :=
  (wf.index_iff n.path id).mpr ⟨n, found, rfl⟩

/-- Whatever is found under a path is a node with that path. -/
lemma get?_of_find? (found : t.find? path = some id) : ∃ n, t.get? id = some n ∧ n.path = path :=
  (wf.index_iff path id).mp found

/-- Nodes with the same path are the same. -/
lemma id_unique {id' : NodeId} {n' : Node} (found : t.get? id = some n)
    (found' : t.get? id' = some n') (same : n.path = n'.path) : id = id' := by
  have eq := wf.find?_path found
  rw [same, wf.find?_path found'] at eq
  exact (Option.some.inj eq).symm

/-- The root is found under its path. -/
lemma find?_root : t.find? Path.root = some .root := by
  obtain ⟨n, found, path, -, -⟩ := wf.root
  rw [← path]
  exact wf.find?_path found

/-- Only the root has the path of the root. -/
lemma path_eq_root_iff (found : t.get? id = some n) : n.path = Path.root ↔ id = .root := by
  obtain ⟨r, foundRoot, path, -, -⟩ := wf.root
  constructor
  · intro eq
    exact wf.id_unique found foundRoot (eq.trans path.symm)
  · rintro rfl
    rw [foundRoot] at found
    rw [← Option.some.inj found]
    exact path

/-- The next identifier is not in use. -/
lemma get?_next : t.get? t.next = none := by
  cases found : t.get? t.next with
  | none => rfl
  | some n => exact absurd (wf.fresh _ n found) (StrictOrder.irrefl _)

end WellFormed

/-! ## Checks -/

/-- A look-up succeeds for valid paths of nodes. -/
lemma lookup_eq_ok_iff :
    t.lookup path = .ok id ↔ Path.isValid path = true ∧ t.find? path = some id := by
  rw [lookup, bind_eq_ok]
  constructor
  · rintro ⟨_, valid, found⟩
    cases eq : t.find? path with
    | none => simp [eq] at found
    | some id' =>
      simp only [eq, pure, Except.pure, Except.ok.injEq] at found
      exact ⟨Path.validate_eq_ok_iff.mp valid, congrArg some found⟩
  · rintro ⟨valid, found⟩
    refine ⟨(), Path.validate_of_isValid valid, ?_⟩
    rw [found]
    rfl

/-- A path can be created if it is valid and new and a directory is above it. -/
lemma checkCreate_eq_ok_iff : t.checkCreate path = .ok above ↔
    Path.isValid path = true ∧ t.find? path = none ∧ t.find? (Path.parent path) = some above ∧
      ∃ p, t.get? above = some p ∧ p.isDir = true := by
  rw [checkCreate, bind_eq_ok]
  constructor
  · rintro ⟨_, valid, rest⟩
    split at rest
    case isTrue => cases rest
    case isFalse new =>
      split at rest
      · cases rest
      · rename_i id found
        split at rest
        · cases rest
        · rename_i p node
          split at rest
          case isFalse => cases rest
          case isTrue dir =>
            obtain rfl : id = above := Except.ok.inj rest
            exact ⟨Path.validate_eq_ok_iff.mp valid, by simpa using new, found, p, node, dir⟩
  · rintro ⟨valid, new, found, p, node, dir⟩
    refine ⟨(), Path.validate_of_isValid valid, ?_⟩
    simp only [new, found, node, dir, Option.isSome_none, Bool.false_eq_true, if_false, if_true]
    rfl

/-- Nothing can be created where no directory is. -/
lemma checkCreate_of_missing (valid : Path.isValid path = true) (new : t.find? path = none)
    (missing : t.find? (Path.parent path) = none) :
    t.checkCreate path = .error (.noSuchParent path) := by
  rw [checkCreate, Path.validate_of_isValid valid]
  simp only [bind, Except.bind, new, missing, Option.isSome_none, Bool.false_eq_true, if_false]

/-- A path can be removed if its node is not the root, has no children and is not locked. -/
lemma checkRemove_eq_ok_iff {locks : LockTable} : t.checkRemove path locks = .ok id ↔
    Path.isValid path = true ∧ path ≠ Path.root ∧ t.find? path = some id ∧
      ∃ n, t.get? id = some n ∧ (∀ name, name ∉ n.children) ∧ locks.isHeld id = false := by
  rw [checkRemove, bind_eq_ok]
  constructor
  · rintro ⟨_, valid, rest⟩
    split at rest
    case isTrue => cases rest
    case isFalse notRoot =>
      obtain ⟨id', looked, rest⟩ := bind_eq_ok.mp rest
      split at rest
      · cases rest
      · rename_i n node
        split at rest
        case isTrue => cases rest
        case isFalse idle =>
          split at rest
          case isTrue => cases rest
          case isFalse free =>
            obtain rfl : id' = id := Except.ok.inj rest
            refine ⟨Path.validate_eq_ok_iff.mp valid, notRoot, (lookup_eq_ok_iff.mp looked).2, n,
              node, ?_, by simpa using free⟩
            exact FinMap.isEmpty_iff.mp (by simpa using idle)
  · rintro ⟨valid, notRoot, found, n, node, idle, free⟩
    refine ⟨(), Path.validate_of_isValid valid, ?_⟩
    rw [if_neg notRoot, lookup_eq_ok_iff.mpr ⟨valid, found⟩]
    have empty : FinMap.isEmpty n.children = true := FinMap.isEmpty_iff.mpr idle
    simp only [bind, Except.bind, node, empty, free, Bool.not_true, Bool.false_eq_true, if_false]
    rfl

/-- The node above one that goes stays where it is. -/
lemma lookup_parent_prune {locks : LockTable} (checked : t.checkRemove path locks = .ok id)
    (foundAbove : t.find? (Path.parent path) = some above) :
    (t.prune id above path).lookup (Path.parent path) = .ok above := by
  obtain ⟨valid, notRoot, -⟩ := checkRemove_eq_ok_iff.mp checked
  refine lookup_eq_ok_iff.mpr ⟨Path.isValid_parent valid notRoot, ?_⟩
  rw [find?_prune, if_neg (Path.parent_ne_self valid notRoot)]
  exact foundAbove

/-- No check of the tree finds the tables in contradiction. -/
lemma not_fatal_of_lookup {why : Failure} (failed : t.lookup path = .error why) : ¬ why.IsFatal := by
  rintro ⟨detail, rfl⟩
  rcases bind_eq_error.mp failed with invalid | ⟨_, -, rest⟩
  · exact Path.validate_ne_corrupted invalid
  · split at rest <;> cases rest

/-- A refusal to create a node is no sign of corruption. -/
lemma not_fatal_of_checkCreate {why : Failure} (failed : t.checkCreate path = .error why) :
    ¬ why.IsFatal := by
  rintro ⟨detail, rfl⟩
  rcases bind_eq_error.mp failed with invalid | ⟨_, -, rest⟩
  · exact Path.validate_ne_corrupted invalid
  · repeat' split at rest
    all_goals cases rest

/-- A refusal to remove a node is no sign of corruption. -/
lemma not_fatal_of_checkRemove {locks : LockTable} {why : Failure}
    (failed : t.checkRemove path locks = .error why) : ¬ why.IsFatal := by
  rintro ⟨detail, rfl⟩
  rcases bind_eq_error.mp failed with invalid | ⟨_, -, rest⟩
  · exact Path.validate_ne_corrupted invalid
  · split at rest
    · cases rest
    · rcases bind_eq_error.mp rest with missing | ⟨id, -, rest⟩
      · exact not_fatal_of_lookup missing ⟨detail, rfl⟩
      · repeat' split at rest
        all_goals cases rest

/-- What creation makes of a tree. -/
lemma create_eq_ok (isDir ephemeral : Bool) (checked : t.checkCreate path = .ok above) :
    t.create path isDir ephemeral = .ok (t.next, t.grow above path isDir ephemeral) := by
  rw [create, checked]
  rfl

namespace WellFormed

/-- What removal makes of a tree. -/
lemma remove_eq_ok (wf : t.WellFormed) {locks : LockTable}
    (checked : t.checkRemove path locks = .ok id) :
    ∃ n above p, t.get? id = some n ∧ n.path = path ∧ t.find? (Path.parent path) = some above ∧
      t.get? above = some p ∧ above ≠ id ∧
      t.remove path locks = .ok ((id, n), t.prune id above path) := by
  obtain ⟨valid, notRoot, found, n, node, -, -⟩ := checkRemove_eq_ok_iff.mp checked
  obtain ⟨n', node', pathEq⟩ := wf.get?_of_find? found
  rw [node] at node'
  obtain rfl := Option.some.inj node'
  obtain rfl := pathEq
  obtain ⟨above, p, foundAbove, nodeAbove, -⟩ := wf.parent n.path id found notRoot
  have apart : Path.parent n.path ≠ n.path := Path.parent_ne_self valid notRoot
  have other : above ≠ id := by
    rintro rfl
    obtain ⟨q, nodeQ, pathQ⟩ := wf.get?_of_find? foundAbove
    rw [node] at nodeQ
    obtain rfl := Option.some.inj nodeQ
    exact apart pathQ.symm
  refine ⟨n, above, p, node, rfl, foundAbove, nodeAbove, other, ?_⟩
  have index : (t.index.erase n.path).get? (Path.parent n.path) = some above := by
    rw [FinMap.get?_erase, if_neg apart]
    exact foundAbove
  simp only [remove, checked, bind, Except.bind, node, index]
  rfl

end WellFormed

/-! ## The tree stays well formed -/

/-- A new tree is well formed. -/
lemma wellFormed_new : new.WellFormed := by
  have nodes : ∀ id, new.get? id =
      if id = NodeId.root then some (.new Path.root true false) else none := fun id => by
    rw [get?, new, FinMap.get?_insert, FinMap.get?_empty]
  have index : ∀ path, new.find? path = if path = Path.root then some .root else none :=
    fun path => by rw [find?, new, FinMap.get?_insert, FinMap.get?_empty]
  have only : ∀ path id, new.find? path = some id → path = Path.root := by
    intro path id found
    rw [index] at found
    split at found
    case isTrue eq => exact eq
    case isFalse => cases found
  constructor
  · intro path id
    rw [index, nodes]
    constructor
    · intro found
      split at found
      case isTrue eq =>
        obtain rfl := Option.some.inj found
        exact ⟨.new Path.root true false, if_pos rfl, eq.symm⟩
      case isFalse => cases found
    · rintro ⟨n, found, rfl⟩
      split at found
      case isTrue eq =>
        obtain rfl := Option.some.inj found
        rw [eq]
        rfl
      case isFalse => cases found
  · intro path id found
    rw [only path id found]
    exact Path.isValid_root
  · exact ⟨.new Path.root true false, by rw [nodes, if_pos rfl], rfl, rfl, rfl⟩
  · intro path id found notRoot
    exact absurd (only path id found) notRoot
  · intro id n name found
    rw [nodes] at found
    split at found
    case isFalse => cases found
    case isTrue =>
      obtain rfl := Option.some.inj found
      constructor
      · intro mem
        exact absurd mem FinMap.not_mem_empty
      · rintro ⟨path, child, foundChild, notRoot, -⟩
        exact absurd (only path child foundChild) notRoot
  · intro id n found
    rw [nodes] at found
    split at found
    case isTrue eq =>
      rw [eq]
      exact Id.lt_next _
    case isFalse => cases found

namespace WellFormed

/-- Attributes and handles do not matter to the shape of a tree. -/
lemma modify (wf : t.WellFormed) {f : Node → Node} (same : ∀ n : Node, n.SameShape (f n)) :
    (t.modify id f).WellFormed := by
  -- the nodes of the two trees correspond, shape by shape
  have fwd : ∀ i n', (t.modify id f).get? i = some n' → ∃ n, t.get? i = some n ∧ n.SameShape n' := by
    intro i n' found
    obtain ⟨n, foundN, rfl⟩ := FinMap.get?_modify_eq_some.mp found
    refine ⟨n, foundN, ?_⟩
    split
    case isTrue => exact same n
    case isFalse => exact ⟨rfl, rfl, rfl, rfl⟩
  have bwd : ∀ i n, t.get? i = some n → ∃ n', (t.modify id f).get? i = some n' ∧ n.SameShape n' := by
    intro i n found
    refine ⟨_, FinMap.get?_modify_of_get? found, ?_⟩
    split
    case isTrue => exact same n
    case isFalse => exact ⟨rfl, rfl, rfl, rfl⟩
  constructor
  · intro path i
    rw [find?_modify, wf.index_iff]
    constructor
    · rintro ⟨n, found, rfl⟩
      obtain ⟨n', found', path, -⟩ := bwd i n found
      exact ⟨n', found', path⟩
    · rintro ⟨n', found', rfl⟩
      obtain ⟨n, found, path, -⟩ := fwd i n' found'
      exact ⟨n, found, path.symm⟩
  · exact wf.valid
  · obtain ⟨r, found, path, dir, eph⟩ := wf.root
    obtain ⟨r', found', path', dir', eph', -⟩ := bwd _ r found
    exact ⟨r', found', path'.trans path, dir'.trans dir, eph'.trans eph⟩
  · intro path i found notRoot
    obtain ⟨above, p, foundAbove, nodeAbove, dir⟩ := wf.parent path i found notRoot
    obtain ⟨p', nodeAbove', -, dir', -⟩ := bwd above p nodeAbove
    exact ⟨above, p', foundAbove, nodeAbove', dir'.trans dir⟩
  · intro i n' name found'
    obtain ⟨n, found, path, -, -, children⟩ := fwd i n' found'
    rw [path, children]
    exact wf.children i n name found
  · intro i n' found'
    obtain ⟨n, found, -⟩ := fwd i n' found'
    exact wf.fresh i n found

/-- A tree grows well formed. -/
lemma grow (wf : t.WellFormed) {isDir ephemeral : Bool} (checked : t.checkCreate path = .ok above) :
    (t.grow above path isDir ephemeral).WellFormed := by
  obtain ⟨valid, new, foundAbove, p, nodeAbove, dir⟩ := checkCreate_eq_ok_iff.mp checked
  have notRoot : path ≠ Path.root := by
    rintro rfl
    rw [wf.find?_root] at new
    cases new
  have vacant := wf.get?_next
  obtain ⟨p', nodeAbove', pathAbove⟩ := wf.get?_of_find? foundAbove
  obtain rfl : p = p' := Option.some.inj (nodeAbove.symm.trans nodeAbove')
  have notSelf := Path.parent_ne_self valid notRoot
  constructor
  · intro path' i
    have := wf.index_iff path' i
    grind [Node.new, Node.addChild]
  · have := wf.valid
    grind
  · obtain ⟨r, found, path, dir, eph⟩ := wf.root
    grind [Node.new, Node.addChild]
  · intro path' i found other
    have := wf.parent path' i
    grind [Node.new, Node.addChild]
  · intro i n name found
    rw [get?_grow] at found
    split at found
    case isTrue =>
      -- nothing exists yet below the new node
      obtain rfl := Option.some.inj found
      constructor
      · intro mem
        exact absurd mem FinMap.not_mem_empty
      · rintro ⟨path', child, foundChild, notRoot', parent, -⟩
        have below := wf.parent path' child
        grind [Node.new]
    case isFalse =>
      split at found
      case isTrue eq =>
        subst eq
        rw [nodeAbove, Option.map_some] at found
        obtain rfl := Option.some.inj found
        have old := wf.children i p name nodeAbove
        simp only [Node.addChild, FinSet.mem_add, old]
        grind
      case isFalse other =>
        have old := wf.children i n name found
        have apart : n.path ≠ Path.parent path := by
          intro eq
          exact other (wf.id_unique found nodeAbove (eq.trans pathAbove.symm))
        rw [old]
        grind
  · intro i n found
    have := wf.fresh i
    have next : (t.grow above path isDir ephemeral).next = t.next.next := rfl
    rw [next]
    have lt := Id.lt_next t.next
    rw [get?_grow] at found
    split at found
    case isTrue eq => exact eq ▸ lt
    case isFalse =>
      obtain ⟨m, old⟩ : ∃ m, t.get? i = some m := by grind
      exact StrictOrder.trans (this m old) lt

/-- The new node is below the one it was created in. -/
lemma parent?_grow (wf : t.WellFormed) {isDir ephemeral : Bool}
    (checked : t.checkCreate path = .ok above) :
    (t.grow above path isDir ephemeral).parent? t.next = some above := by
  obtain ⟨valid, new, foundAbove, -⟩ := checkCreate_eq_ok_iff.mp checked
  have notRoot : path ≠ Path.root := by
    rintro rfl
    rw [wf.find?_root] at new
    cases new
  have other : t.next ≠ NodeId.root := by
    obtain ⟨r, found, -⟩ := wf.root
    intro eq
    rw [← eq, wf.get?_next] at found
    cases found
  rw [parent?, get?_grow, if_pos rfl]
  simp only [Option.bind_eq_bind, Option.bind_some, if_neg other, find?_grow]
  exact (if_neg (Path.parent_ne_self valid notRoot)).trans foundAbove

/-- A tree from which a childless node is taken stays well formed. -/
lemma prune (wf : t.WellFormed) (valid : Path.isValid path = true) (notRoot : path ≠ Path.root)
    (found : t.find? path = some id) (node : t.get? id = some n) (idle : ∀ name, name ∉ n.children)
    (foundAbove : t.find? (Path.parent path) = some above) :
    (t.prune id above path).WellFormed := by
  obtain ⟨p, nodeAbove, pathAbove⟩ := wf.get?_of_find? foundAbove
  obtain ⟨n', node', pathEq⟩ := wf.get?_of_find? found
  obtain rfl : n = n' := Option.some.inj (node.symm.trans node')
  have notSelf := Path.parent_ne_self valid notRoot
  -- no path loses its directory
  have childless : ∀ path' child, t.find? path' = some child → path' ≠ Path.root →
      Path.parent path' ≠ path := by
    intro path' child foundChild notRoot' parent
    have mem := (wf.children id n (Path.name path') node).mpr
      ⟨path', child, foundChild, notRoot', parent.trans pathEq.symm, rfl⟩
    exact idle _ mem
  constructor
  · intro path' i
    have := wf.index_iff path' i
    grind [Node.dropChild]
  · have := wf.valid
    grind
  · obtain ⟨r, foundRoot, pathRoot, dir, eph⟩ := wf.root
    grind [Node.dropChild]
  · intro path' i found' other
    have := wf.parent path' i
    have only : ∀ q, t.find? q = some id → q = path := by
      intro q foundQ
      obtain ⟨m, nodeM, pathM⟩ := wf.get?_of_find? foundQ
      rw [← pathM, ← Option.some.inj (node.symm.trans nodeM), pathEq]
    grind [Node.dropChild]
  · intro i m name foundM
    rw [get?_prune] at foundM
    split at foundM
    case isTrue => cases foundM
    case isFalse =>
      split at foundM
      case isTrue eq =>
        subst eq
        rw [nodeAbove, Option.map_some] at foundM
        obtain rfl := Option.some.inj foundM
        have old := wf.children i p name nodeAbove
        have unique : ∀ path' child, t.find? path' = some child → path' ≠ Path.root →
            Path.parent path' = Path.parent path → Path.name path' = Path.name path → path' = path :=
          fun path' child foundChild notRoot' =>
            Path.eq_of_parent_of_name (wf.valid path' child foundChild) notRoot' valid notRoot
        simp only [Node.dropChild, FinSet.mem_erase, old]
        grind
      case isFalse other =>
        have old := wf.children i m name foundM
        have apart : m.path ≠ Path.parent path := by
          intro eq
          exact other (wf.id_unique foundM nodeAbove (eq.trans pathAbove.symm))
        rw [old]
        grind
  · intro i m foundM
    have := wf.fresh i
    rw [next_prune]
    grind

end WellFormed

end Tree

end Coordination
