import Coordination.Proofs.Store
import Coordination.Proofs.Tree.Record
import Coordination.Proofs.Tree.Shape

/-!
# The records of a tree

`recordAt?` looks at a tree as the store does: it finds the records of the nodes that are not
ephemeral, by path. Each change of a tree changes at most one of them. `Mirrored` says that a store
holds these records and no others, and is kept by writing the record that a change concerns.
-/

namespace Coordination.Tree

variable {t t' : Tree} {id above : NodeId} {path : String} {n : Node} {r : Record} {c : Contents}

/-- The record of the node at a path, if there is a node that has one. -/
def recordAt? (t : Tree) (path : String) : Option Record := (t.find? path).bind t.record?

/-- The record of a node that is there. -/
lemma record?_of_get? (node : t.get? id = some n) :
    t.record? id = if n.ephemeral then none else some n.record := by
  rw [record?, node]
  rfl

/-- The record of a path is that of its node. -/
lemma recordAt?_of_find? (found : t.find? path = some id) : t.recordAt? path = t.record? id := by
  rw [recordAt?, found]
  rfl

/-- A path without a node has no record. -/
lemma recordAt?_of_none (vacant : t.find? path = none) : t.recordAt? path = none := by
  rw [recordAt?, vacant]
  rfl

/-! ## Changes of the tree -/

namespace WellFormed

variable (wf : t.WellFormed)
include wf

/-- The paths with a record are those of durable nodes. -/
lemma recordAt?_eq_some : t.recordAt? path = some r ↔
    ∃ i n, t.get? i = some n ∧ n.path = path ∧ n.ephemeral = false ∧ n.record = r := by
  constructor
  · intro kept
    obtain ⟨i, found, kept⟩ := Option.bind_eq_some_iff.mp kept
    obtain ⟨n, node, path⟩ := wf.get?_of_find? found
    rw [record?_of_get? node] at kept
    split at kept
    case isTrue => cases kept
    case isFalse persistent =>
      exact ⟨i, n, node, path, Bool.eq_false_iff.mpr persistent, Option.some.inj kept⟩
  · rintro ⟨i, n, node, rfl, persistent, rfl⟩
    rw [recordAt?_of_find? (wf.find?_path node), record?_of_get? node, persistent]
    rfl

/-- The record of the path of a node. -/
lemma recordAt?_path (node : t.get? id = some n) :
    t.recordAt? n.path = if n.ephemeral then none else some n.record := by
  rw [recordAt?_of_find? (wf.find?_path node), record?_of_get? node]

/-- The root is a directory and has a record. -/
lemma recordAt?_root : ∃ attrs, t.recordAt? Path.root = some ⟨true, attrs⟩ := by
  obtain ⟨n, node, path, isDir, persistent⟩ := wf.root
  refine ⟨n.attrs, wf.recordAt?_eq_some.mpr ⟨.root, n, node, path, persistent, ?_⟩⟩
  rw [Node.record, isDir]

/-- Trees with the same nodes but for ephemeral ones have the same records. -/
lemma recordAt?_congr (wf' : t'.WellFormed)
    (nodes : ∀ i n, t.get? i = some n → (t'.get? i = none ∧ n.ephemeral = true) ∨
      ∃ n', t'.get? i = some n' ∧ n'.path = n.path ∧ n'.isDir = n.isDir ∧
        n'.ephemeral = n.ephemeral ∧ n'.attrs = n.attrs)
    (old : ∀ i n', t'.get? i = some n' → ∃ n, t.get? i = some n) (path : String) :
    t'.recordAt? path = t.recordAt? path := by
  apply Option.ext
  intro r
  rw [wf'.recordAt?_eq_some, wf.recordAt?_eq_some]
  constructor
  · rintro ⟨i, n', node', rfl, persistent, rfl⟩
    obtain ⟨n, node⟩ := old i n' node'
    rcases nodes i n node with ⟨gone, -⟩ | ⟨n₂, node₂, path, isDir, ephemeral, attrs⟩
    · rw [node'] at gone
      cases gone
    · obtain rfl : n' = n₂ := Option.some.inj (node'.symm.trans node₂)
      refine ⟨i, n, node, path.symm, ephemeral ▸ persistent, ?_⟩
      rw [Node.record, Node.record, isDir, attrs]
  · rintro ⟨i, n, node, rfl, persistent, rfl⟩
    rcases nodes i n node with ⟨-, gone⟩ | ⟨n', node', path, isDir, ephemeral, attrs⟩
    · rw [persistent] at gone
      cases gone
    · refine ⟨i, n', node', path, ephemeral ▸ persistent, ?_⟩
      rw [Node.record, Node.record, isDir, attrs]

/-- A change of one node changes at most the record at its path. -/
lemma recordAt?_modify {f : Node → Node} (shape : ∀ n : Node, n.SameShape (f n))
    (node : t.get? id = some n) (path : String) : (t.modify id f).recordAt? path =
      if path = n.path then if n.ephemeral then none else some (f n).record
      else t.recordAt? path := by
  have wf' : (t.modify id f).WellFormed := wf.modify shape
  have node' : (t.modify id f).get? id = some (f n) := by
    rw [get?_modify, if_pos rfl, node]
    rfl
  split
  case isTrue eq =>
    obtain ⟨samePath, -, sameEphemeral, -⟩ := shape n
    have look := wf'.recordAt?_path node'
    rwa [samePath, sameEphemeral, ← eq] at look
  case isFalse other =>
    rw [recordAt?, recordAt?, find?_modify]
    cases found : t.find? path with
    | none => rfl
    | some i =>
      have apart : i ≠ id := by
        rintro rfl
        obtain ⟨m, nodeM, pathM⟩ := wf.get?_of_find? found
        obtain rfl : m = n := Option.some.inj (nodeM.symm.trans node)
        exact other pathM.symm
      have same : (t.modify id f).get? i = t.get? i := by rw [get?_modify, if_neg apart]
      rw [Option.bind_some, Option.bind_some, record?, record?, same]

/-- A new node adds its record, unless it is ephemeral. -/
lemma recordAt?_grow {isDir ephemeral : Bool} (path' : String) : (t.grow above path isDir ephemeral).recordAt? path' =
      if path' = path then if ephemeral then none else some ⟨isDir, .empty⟩
      else t.recordAt? path' := by
  have vacant := wf.get?_next
  rw [recordAt?, find?_grow]
  split
  case isTrue =>
    have node : (t.grow above path isDir ephemeral).get? t.next =
        some (.new path isDir ephemeral) := by rw [get?_grow, if_pos rfl]
    rw [Option.bind_some, record?_of_get? node]
    rfl
  case isFalse =>
    rw [recordAt?]
    cases found : t.find? path' with
    | none => rfl
    | some i =>
      obtain ⟨m, node, -⟩ := wf.get?_of_find? found
      have old : i ≠ t.next := by
        rintro rfl
        rw [vacant] at node
        cases node
      rw [Option.bind_some, Option.bind_some, record?_of_get? node, record?, get?_grow,
        if_neg old, node]
      split <;> rfl

/-- A node that goes takes its record with it. -/
lemma recordAt?_prune (found : t.find? path = some id) (path' : String) :
    (t.prune id above path).recordAt? path' = if path' = path then none else t.recordAt? path' := by
  rw [recordAt?, find?_prune]
  split
  case isTrue => rfl
  case isFalse other =>
    rw [recordAt?]
    cases found' : t.find? path' with
    | none => rfl
    | some i =>
      obtain ⟨m, node, pathM⟩ := wf.get?_of_find? found'
      obtain ⟨n, nodeN, pathN⟩ := wf.get?_of_find? found
      have apart : i ≠ id := by
        rintro rfl
        obtain rfl : m = n := Option.some.inj (node.symm.trans nodeN)
        exact other (pathM.symm.trans pathN)
      rw [Option.bind_some, Option.bind_some, record?_of_get? node, record?, get?_prune,
        if_neg apart, node]
      split <;> rfl

end WellFormed

/-! ## The store -/

/-- The store holds the records of a tree and, under the keys of records, nothing else. Of the root
it holds the attributes, or nothing if there are none. -/
structure Mirrored (reads : Record → Bytes → Prop) (t : Tree) (c : Contents) : Prop where
  stored : ∀ path r, path ≠ Path.root → t.recordAt? path = some r →
    ∃ v, c.get? (Record.key path) = some v ∧ reads r v
  known : ∀ k v, c.get? k = some v → Record.keyStem <+: k →
    ∃ path, k = Record.key path ∧ (path = Path.root ∨ ∃ r, t.recordAt? path = some r)
  root : ∀ r, t.recordAt? Path.root = some r →
    (c.get? (Record.key Path.root) = none ∧ r.attrs = .empty) ∨
      ∃ v r', c.get? (Record.key Path.root) = some v ∧ reads r' v ∧ r'.attrs = r.attrs

namespace Mirrored

variable {reads : Record → Bytes → Prop} (mirrored : t.Mirrored reads c)
include mirrored

/-- Nothing is to be written as long as the records stay. -/
lemma congr (same : ∀ path, t'.recordAt? path = t.recordAt? path) : t'.Mirrored reads c := by
  constructor
  case stored =>
    intro path r below kept
    exact mirrored.stored path r below (same path ▸ kept)
  case known =>
    intro k v found stem
    obtain ⟨path, rfl, at_root | ⟨r, kept⟩⟩ := mirrored.known k v found stem
    · exact ⟨path, rfl, .inl at_root⟩
    · exact ⟨path, rfl, .inr ⟨r, (same path).trans kept⟩⟩
  case root =>
    intro r kept
    exact mirrored.root r (same Path.root ▸ kept)

/-- When the record at one path changes, the value at its key is to be changed. -/
lemma update {kept : Option Record} {held : Option Bytes} {c' : Contents}
    (records : ∀ path', t'.recordAt? path' = if path' = path then kept else t.recordAt? path')
    (store : ∀ k, c'.get? k = if k = Record.key path then held else c.get? k)
    (written : ∀ r, kept = some r → ∃ v, held = some v ∧ reads r v)
    (deleted : kept = none → held = none ∧ path ≠ Path.root) : t'.Mirrored reads c' := by
  have key_eq : ∀ path', Record.key path' = Record.key path ↔ path' = path :=
    fun _ => Record.key_injective.eq_iff
  constructor
  case stored =>
    intro path' r below found
    rw [records] at found
    rw [store]
    split at found
    case isTrue eq =>
      rw [if_pos ((key_eq path').mpr eq)]
      exact written r found
    case isFalse other =>
      rw [if_neg fun eq => other ((key_eq path').mp eq)]
      exact mirrored.stored path' r below found
  case known =>
    intro k v found stem
    rw [store] at found
    split at found
    case isTrue eq =>
      refine ⟨path, eq, .inr ?_⟩
      rw [records, if_pos rfl]
      cases kept with
      | some r => exact ⟨r, rfl⟩
      | none =>
        rw [(deleted rfl).1] at found
        cases found
    case isFalse other =>
      obtain ⟨path', rfl, at_root | ⟨r, old⟩⟩ := mirrored.known k v found stem
      · exact ⟨path', rfl, .inl at_root⟩
      · refine ⟨path', rfl, .inr ⟨r, ?_⟩⟩
        rw [records, if_neg fun eq => other ((key_eq path').mpr eq)]
        exact old
  case root =>
    intro r found
    rw [records] at found
    rw [store]
    split at found
    case isTrue eq =>
      obtain ⟨v, held, value⟩ := written r found
      rw [if_pos ((key_eq _).mpr eq)]
      exact .inr ⟨v, r, held, value, rfl⟩
    case isFalse other =>
      rw [if_neg fun eq => other ((key_eq _).mp eq)]
      exact mirrored.root r found

/-- A record that is new or has changed is to be written. -/
lemma insert {v : Bytes} (written : reads r v) (records : ∀ path', t'.recordAt? path' =
    if path' = path then some r else t.recordAt? path') :
    t'.Mirrored reads (c.insert (Record.key path) v) := by
  refine mirrored.update records (fun _ => FinMap.get?_insert ..) ?_ nofun
  intro r' eq
  obtain rfl := Option.some.inj eq
  exact ⟨v, rfl, written⟩

/-- A record that is gone is to be deleted. -/
lemma erase (below : path ≠ Path.root) (records : ∀ path', t'.recordAt? path' =
    if path' = path then none else t.recordAt? path') :
    t'.Mirrored reads (c.erase (Record.key path)) :=
  mirrored.update records (fun _ => FinMap.get?_erase ..) nofun fun _ => ⟨rfl, below⟩

/-- What can be read off the store depends on the records that are there. -/
lemma imp {reads' : Record → Bytes → Prop} (weaker : ∀ path r r' v, t.recordAt? path = some r →
    r'.attrs = r.attrs → reads r' v → reads' r' v) : t.Mirrored reads' c := by
  constructor
  case stored =>
    intro path r below kept
    obtain ⟨v, found, written⟩ := mirrored.stored path r below kept
    exact ⟨v, found, weaker path r r v kept rfl written⟩
  case known => exact mirrored.known
  case root =>
    intro r kept
    rcases mirrored.root r kept with none | ⟨v, r', found, written, same⟩
    · exact .inl none
    · exact .inr ⟨v, r', found, weaker _ r r' v kept same written, same⟩

end Mirrored

end Coordination.Tree
