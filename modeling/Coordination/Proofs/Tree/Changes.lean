import Coordination.Proofs.Tree.Recovery

/-!
# Trees under changes

A tree starts new or recovered and goes through creations, removals and changes of attributes, some
of which fail and leave it as it was. Wherever this leads the tree is well formed, and `Coherent`
spells out what follows for those who look at it: by path, by identifier, or by listing a directory.
-/

namespace Coordination.Tree

variable {t : Tree} {id above : NodeId} {n : Node} {path name : String}

/-! ## Changes -/

/-- A change that a tree is asked for. -/
inductive Change where
  | create (path : String) (isDir ephemeral : Bool)
  | remove (path : String) (locks : LockTable)
  | setAttr (id : NodeId) (name : String) (value : Bytes)
  | dropAttr (id : NodeId) (name : String)

/-- What a change leaves of a tree; one that fails leaves all of it. -/
def change (t : Tree) : Change → Tree
  | .create path isDir ephemeral =>
    match t.create path isDir ephemeral with
    | .ok (_, t') => t'
    | .error _ => t
  | .remove path locks =>
    match t.remove path locks with
    | .ok (_, t') => t'
    | .error _ => t
  | .setAttr id name value => t.modify id (·.setAttr name value)
  | .dropAttr id name => t.modify id (·.dropAttr name)

/-- The trees that changes lead to. -/
inductive Reached : Tree → Prop
  | new : Reached new
  | recover {s s' : Store} {t : Tree} (recovered : recover s = .ok (t, s')) : Reached t
  | changed {t : Tree} (reached : Reached t) (c : Change) : Reached (t.change c)

/-- Every change keeps the tree well formed. -/
lemma WellFormed.change (wf : t.WellFormed) (c : Change) : (t.change c).WellFormed := by
  cases c with
  | create path isDir ephemeral =>
    rw [Tree.change]
    cases checked : t.checkCreate path with
    | ok above =>
      rw [create_eq_ok isDir ephemeral checked]
      exact wf.grow checked
    | error why =>
      have failed : t.create path isDir ephemeral = .error why := by
        rw [create, checked]
        rfl
      rw [failed]
      exact wf
  | remove path locks =>
    rw [Tree.change]
    cases checked : t.checkRemove path locks with
    | ok id =>
      obtain ⟨valid, notRoot, found, m, node, idle, -⟩ := checkRemove_eq_ok_iff.mp checked
      obtain ⟨n, above, p, -, -, foundAbove, -, -, removed⟩ := wf.remove_eq_ok checked
      rw [removed]
      exact wf.prune valid notRoot found node idle foundAbove
    | error why =>
      have failed : t.remove path locks = .error why := by
        rw [remove, checked]
        rfl
      rw [failed]
      exact wf
  | setAttr id name value => exact wf.modify (Node.sameShape_setAttr name value)
  | dropAttr id name => exact wf.modify (Node.sameShape_dropAttr name)

/-- Changes lead from reached trees to reached trees. -/
lemma Reached.changes (reached : t.Reached) (list : List Change) :
    Reached (list.foldl Tree.change t) := by
  induction list generalizing t with
  | nil => exact reached
  | cons c rest ih => exact ih (reached.changed c)

/-- A reached tree is well formed. -/
lemma Reached.wellFormed (reached : t.Reached) : t.WellFormed := by
  induction reached with
  | new => exact wellFormed_new
  | recover recovered => exact (bare_of_recover recovered).wellFormed
  | changed reached c ih => exact ih.change c

/-! ## What can be seen of a tree -/

/-- Index, nodes and children's names tell the same story about which paths exist. -/
structure Coherent (t : Tree) : Prop where
  /-- The index is the inverse of the table of nodes. -/
  index_iff : ∀ path id, t.find? path = some id ↔ ∃ n, t.get? id = some n ∧ n.path = path
  valid : ∀ id n, t.get? id = some n → Path.isValid n.path = true
  root : ∃ n, t.get? .root = some n ∧ n.path = Path.root ∧ n.isDir = true ∧ n.ephemeral = false
  /-- Whatever is not the root is in a directory. -/
  directory : ∀ id n, t.get? id = some n → id ≠ .root → ∃ above p,
    t.find? (Path.parent n.path) = some above ∧ t.get? above = some p ∧ p.isDir = true
  /-- A directory knows what is in it by name, and a file contains nothing. -/
  children : ∀ id n name, t.get? id = some n → (name ∈ n.children ↔
    n.isDir = true ∧ Path.IsName name ∧ ∃ child, t.find? (Path.join n.path name) = some child)
  /-- A listing is in ascending order and names nothing twice. -/
  list : ∀ id n, t.get? id = some n → ∃ names, t.list n.path = .ok names ∧
    names.Pairwise (· < ·) ∧ ∀ name, name ∈ names ↔
      Path.IsName name ∧ ∃ child, t.find? (Path.join n.path name) = some child
  /-- One node is above another if the path of that one is its own with a component more. -/
  parent : ∀ id above, t.parent? id = some above ↔ ∃ n p name, t.get? id = some n ∧
    t.get? above = some p ∧ Path.IsName name ∧ Path.join p.path name = n.path
  fresh : ∀ id n, t.get? id = some n → id < t.next

/-- The parent of a node is the node of the path above it, and the root has none. -/
lemma parent?_of_get? (node : t.get? id = some n) :
    t.parent? id = if id = .root then none else t.find? (Path.parent n.path) := by
  rw [parent?, node]
  rfl

namespace WellFormed

variable (wf : t.WellFormed)
include wf

/-- The path of a node is valid. -/
lemma isValid_path (node : t.get? id = some n) : Path.isValid n.path = true :=
  wf.valid _ id (wf.find?_path node)

/-- The children of a node are what can be found below its path. -/
lemma mem_children_iff (node : t.get? id = some n) : name ∈ n.children ↔
    Path.IsName name ∧ ∃ child, t.find? (Path.join n.path name) = some child := by
  have valid := wf.isValid_path node
  rw [wf.children id n name node]
  constructor
  · rintro ⟨path, child, found, notRoot, above, rfl⟩
    have valid' := wf.valid path child found
    refine ⟨Path.isName_name valid' notRoot, child, ?_⟩
    rw [← above, Path.join_parent_name valid' notRoot]
    exact found
  · rintro ⟨plain, child, found⟩
    obtain ⟨-, notRoot, above, last⟩ := Path.parts_join valid plain
    exact ⟨_, child, found, notRoot, above, last⟩

/-- Only directories have children. -/
lemma isDir_of_find?_join (node : t.get? id = some n) (plain : Path.IsName name) {child : NodeId}
    (found : t.find? (Path.join n.path name) = some child) : n.isDir = true := by
  obtain ⟨-, notRoot, parent, -⟩ := Path.parts_join (wf.isValid_path node) plain
  obtain ⟨above, p, foundAbove, nodeAbove, isDir⟩ := wf.parent _ child found notRoot
  rw [parent, wf.find?_path node] at foundAbove
  obtain rfl := Option.some.inj foundAbove
  obtain rfl : n = p := Option.some.inj (node.symm.trans nodeAbove)
  exact isDir

/-- The node above another one is found by its path. -/
lemma parent?_eq_some_iff : t.parent? id = some above ↔ ∃ n p name, t.get? id = some n ∧
    t.get? above = some p ∧ Path.IsName name ∧ Path.join p.path name = n.path := by
  constructor
  · intro found
    obtain ⟨n, node, -⟩ := Option.bind_eq_some_iff.mp found
    rw [parent?_of_get? node] at found
    split at found
    case isTrue => cases found
    case isFalse other =>
      have notRoot : n.path ≠ Path.root := fun top => other ((wf.path_eq_root_iff node).mp top)
      obtain ⟨p, nodeAbove, path⟩ := wf.get?_of_find? found
      have valid := wf.isValid_path node
      refine ⟨n, p, Path.name n.path, node, nodeAbove, Path.isName_name valid notRoot, ?_⟩
      rw [path, Path.join_parent_name valid notRoot]
  · rintro ⟨n, p, name, node, nodeAbove, plain, path⟩
    obtain ⟨-, notRoot, parent, -⟩ := Path.parts_join (wf.isValid_path nodeAbove) plain
    rw [path] at notRoot parent
    rw [parent?_of_get? node, if_neg fun top => notRoot ((wf.path_eq_root_iff node).mpr top), parent]
    exact wf.find?_path nodeAbove

/-- A node can be listed by its path. -/
lemma list_path (node : t.get? id = some n) : t.list n.path = .ok n.children.keys := by
  have looked := lookup_eq_ok_iff.mpr ⟨wf.isValid_path node, wf.find?_path node⟩
  rw [Tree.list, looked]
  simp only [bind, Except.bind, node]
  rfl

end WellFormed

/-- Whatever changes a tree goes through, its three tables agree. -/
theorem Reached.coherent (reached : t.Reached) : t.Coherent := by
  have wf := reached.wellFormed
  constructor
  case index_iff => exact wf.index_iff
  case valid => exact fun id n node => wf.isValid_path node
  case root => exact wf.root
  case directory =>
    intro id n node other
    exact wf.parent n.path id (wf.find?_path node) fun top =>
      other ((wf.path_eq_root_iff node).mp top)
  case children =>
    intro id n name node
    rw [wf.mem_children_iff node]
    refine ⟨fun ⟨plain, child, found⟩ => ?_, And.right⟩
    exact ⟨wf.isDir_of_find?_join node plain found, plain, child, found⟩
  case list =>
    intro id n node
    refine ⟨n.children.keys, wf.list_path node, FinMap.keys_ascending, fun name => ?_⟩
    rw [FinMap.mem_keys, wf.mem_children_iff node]
  case parent => exact fun id above => wf.parent?_eq_some_iff
  case fresh => exact wf.fresh

/-- A directory that is not empty is to be removed, and a file is to be created in another file. -/
def crowded : Tree :=
  [.create "/d" true false, .create "/d/f" false false, .create "/e" false true,
    .setAttr ⟨3⟩ "k" [1], .remove "/d" .empty, .create "/d/f/g" false false, .remove "/e" .empty,
    .create "/d/a" true false].foldl change new

/-- Such a tree is reached and coherent, and lists its children in order. -/
theorem coherent_crowded : crowded.Reached ∧ crowded.Coherent ∧
    crowded.list "/d" = .ok ["a", "f"] := by
  have reached : crowded.Reached := Reached.new.changes _
  exact ⟨reached, reached.coherent, by decide⟩

end Coordination.Tree
