import Coordination.Proofs.Tree.Loading

/-!
# Rebuilding a tree from its records

A recovered tree is mirrored by the store that it leaves. The other way around, `recover_of_mirrored`
says what a store that mirrors a tree is recovered as: the nodes of the tree that are `Durable`, which
are those that are not below an ephemeral one, nor ephemeral themselves.
-/

namespace Coordination.Tree

variable {t : Tree} {c : Contents} {path : String} {r : Record}

/-! ## What is left after a recovery -/

/-- An empty store mirrors a new tree. -/
lemma mirrored_new : new.Mirrored Record.Written .empty := by
  constructor
  case stored => exact fun path r below kept => absurd (recordAt?_new kept).1 below
  case known => exact fun k v found => nomatch found
  case root =>
    intro r kept
    obtain ⟨-, rfl⟩ := recordAt?_new kept
    exact .inl ⟨rfl, rfl⟩

/-- A store that has been recovered holds the records of the tree that was built. -/
lemma mirrored_of_recover {s s' : Store} (recovered : recover s = .ok (t, s')) :
    t.Mirrored Record.Written s'.contents := by
  obtain ⟨-, orphans, built, rfl⟩ := recover_eq_ok recovered
  obtain ⟨readable, -⟩ := exists_ofStored_iff.mp ⟨orphans, t, built⟩
  obtain ⟨-, records, -, lost⟩ := ofStored_eq_ok built
  have stays : ∀ {path : String}, s.contents.Keeps path →
      Record.key path ∉ orphans.map Record.key := by
    intro path keeps mem
    obtain ⟨path', mem', key⟩ := List.mem_map.mp mem
    exact ((lost path).mp (Record.key_injective key ▸ mem')).2 keeps
  constructor
  case stored =>
    intro path r below kept
    obtain ⟨keeps, restored⟩ := (records path r).mp kept
    cases restored with
    | bare => exact absurd rfl below
    | root => exact absurd rfl below
    | child _ held =>
      obtain ⟨v, found, value⟩ := held
      refine ⟨v, ?_, .inr value⟩
      rw [Contents.get?_deleteAll, if_neg (stays keeps)]
      exact found
  case known =>
    intro k v found stem
    rw [Contents.get?_deleteAll] at found
    split at found
    case isTrue => cases found
    case isFalse out =>
      obtain ⟨path, r, rfl, value⟩ := readable k v found stem
      refine ⟨path, rfl, or_iff_not_imp_left.mpr fun below => ⟨r, ?_⟩⟩
      have keeps : s.contents.Keeps path := by
        by_contra dropped
        exact out (List.mem_map_of_mem ((lost path).mpr ⟨⟨v, found⟩, dropped⟩))
      exact (records path r).mpr ⟨keeps, .child below ⟨v, found, value⟩⟩
  case root =>
    intro r kept
    rw [Contents.get?_deleteAll, if_neg (stays .root)]
    obtain ⟨-, restored⟩ := (records Path.root r).mp kept
    cases restored with
    | bare vacant =>
      exact .inl ⟨Option.eq_none_iff_forall_ne_some.mpr fun v found => vacant ⟨v, found⟩, rfl⟩
    | root held =>
      obtain ⟨v, found, value⟩ := held
      exact .inr ⟨v, _, found, .inr value, rfl⟩
    | child below => exact absurd rfl below

/-! ## What a mirrored tree is recovered as -/

/-- The node at a path has a record, and so have all nodes above it. -/
inductive Durable (t : Tree) : String → Prop
  | root : Durable t Path.root
  | child {path : String} {r : Record} (kept : t.recordAt? path = some r)
      (above : Durable t (Path.parent path)) : Durable t path

/-- A durable path has a record. -/
lemma Durable.exists_record (wf : t.WellFormed) (durable : t.Durable path) :
    ∃ r, t.recordAt? path = some r := by
  cases durable with
  | root =>
    obtain ⟨attrs, kept⟩ := wf.recordAt?_root
    exact ⟨_, kept⟩
  | child kept => exact ⟨_, kept⟩

/-- The node at the path of a durable node has a record. -/
lemma Durable.recordAt?_eq_some (wf : t.WellFormed) (durable : t.Durable path) :
    t.recordAt? path = some r ↔ ∃ i n, t.get? i = some n ∧ n.path = path ∧ n.record = r := by
  constructor
  · intro kept
    obtain ⟨i, n, node, path, -, record⟩ := wf.recordAt?_eq_some.mp kept
    exact ⟨i, n, node, path, record⟩
  · rintro ⟨i, n, node, rfl, rfl⟩
    obtain ⟨r, kept⟩ := durable.exists_record wf
    rw [wf.recordAt?_path node] at kept ⊢
    split
    case isTrue ephemeral =>
      rw [if_pos ephemeral] at kept
      cases kept
    case isFalse => rfl

/-! ## Stores that mirror a tree -/

namespace Mirrored

variable (mirrored : t.Mirrored (fun r v => Record.decode v = .ok r) c)
include mirrored

/-- The store holds the records of the tree. -/
lemma holds_iff (below : path ≠ Path.root) : c.Holds path r ↔ t.recordAt? path = some r := by
  constructor
  · rintro ⟨v, found, value⟩
    obtain ⟨path', key, top⟩ := mirrored.known _ v found (Record.keyStem_prefix_key path)
    obtain rfl := Record.key_injective key
    obtain ⟨r', kept⟩ := top.resolve_left below
    obtain ⟨v', found', value'⟩ := mirrored.stored path r' below kept
    obtain rfl := Option.some.inj (found.symm.trans found')
    obtain rfl := Except.ok.inj (value.symm.trans value')
    exact kept
  · exact mirrored.stored path r below

variable (wf : t.WellFormed)
include wf

/-- Every record of the store can be read. -/
lemma readable {k v : Bytes} (found : c.get? k = some v) (stem : Record.keyStem <+: k) :
    ∃ path r, k = Record.key path ∧ Record.decode v = .ok r := by
  obtain ⟨path, rfl, top⟩ := mirrored.known k v found stem
  by_cases below : path = Path.root
  · subst below
    obtain ⟨attrs, kept⟩ := wf.recordAt?_root
    rcases mirrored.root _ kept with ⟨none, -⟩ | ⟨v', r, found', value, -⟩
    · rw [none] at found
      cases found
    · obtain rfl := Option.some.inj (found'.symm.trans found)
      exact ⟨Path.root, r, rfl, value⟩
  · obtain ⟨r, kept⟩ := top.resolve_left below
    obtain ⟨v', found', value⟩ := mirrored.stored path r below kept
    obtain rfl := Option.some.inj (found'.symm.trans found)
    exact ⟨path, r, rfl, value⟩

/-- What a store keeps of a tree is read as a record. -/
lemma exists_holds (stored : c.Stores path) : ∃ r, c.Holds path r := by
  obtain ⟨v, found⟩ := stored
  obtain ⟨path', r, key, value⟩ := mirrored.readable wf found (Record.keyStem_prefix_key path)
  exact ⟨r, v, found, value⟩

/-- The paths that are kept are those of the durable nodes. -/
lemma keeps_iff : c.Keeps path ↔ t.Durable path := by
  constructor
  · intro kept
    induction kept with
    | root => exact .root
    | @child path stored above ih =>
      by_cases below : path = Path.root
      · exact below ▸ .root
      · obtain ⟨r, held⟩ := mirrored.exists_holds wf stored
        exact .child ((mirrored.holds_iff below).mp held) ih
  · intro durable
    induction durable with
    | root => exact .root
    | @child path r kept above ih =>
      by_cases below : path = Path.root
      · exact below ▸ .root
      · exact .child ((mirrored.holds_iff below).mpr kept).stores ih

/-- The store can be loaded, as every node of the tree is in a directory. -/
lemma loadable : c.Loadable := by
  refine ⟨fun k v => mirrored.readable wf, fun path stored => ?_⟩
  by_cases below : path = Path.root
  · exact below ▸ Contents.admits_root
  · obtain ⟨r, held⟩ := mirrored.exists_holds wf stored
    obtain ⟨i, n, node, rfl, -⟩ := wf.recordAt?_eq_some.mp ((mirrored.holds_iff below).mp held)
    have found := wf.find?_path node
    obtain ⟨above, p, foundAbove, nodeAbove, isDir⟩ := wf.parent _ i found below
    refine ⟨wf.valid _ i found, fun _ top r' heldAbove => ?_⟩
    have kept := (mirrored.holds_iff top).mp heldAbove
    rw [recordAt?_of_find? foundAbove, record?_of_get? nodeAbove] at kept
    split at kept
    · cases kept
    · obtain rfl := Option.some.inj kept
      exact isDir

/-- A durable node is loaded with the record it has. -/
lemma restores_iff : c.Restores path r ↔ t.recordAt? path = some r := by
  by_cases below : path = Path.root
  · subst below
    obtain ⟨attrs, kept⟩ := wf.recordAt?_root
    rw [kept, Option.some.injEq]
    rcases mirrored.root _ kept with ⟨none, rfl⟩ | ⟨v, r', found, value, same⟩
    · have vacant : ¬ c.Stores Path.root := fun ⟨v, found⟩ => nomatch none.symm.trans found
      constructor
      · intro restored
        cases restored with
        | bare => rfl
        | root held => exact absurd held.stores vacant
        | child below => exact absurd rfl below
      · rintro rfl
        exact .bare vacant
    · have held : c.Holds Path.root r' := ⟨v, found, value⟩
      have same : r'.attrs = attrs := same
      constructor
      · intro restored
        cases restored with
        | bare vacant => exact absurd held.stores vacant
        | root held' => rw [← held.unique held', same]
        | child below => exact absurd rfl below
      · rintro rfl
        exact same ▸ .root held
  · rw [← mirrored.holds_iff below]
    constructor
    · intro restored
      cases restored with
      | bare => exact absurd rfl below
      | root => exact absurd rfl below
      | child _ held => exact held
    · exact .child below

end Mirrored

/-- A recovery from a store that mirrors a tree succeeds, and finds the durable nodes of the tree
with their records. -/
lemma recover_of_mirrored (wf : t.WellFormed)
    (mirrored : t.Mirrored (fun r v => Record.decode v = .ok r) c)
    {fault : StoreCall → Option Fault} (scan : fault .scan = none) (batch : fault .batch = none) :
    ∃ t' s', recover ⟨c, fault⟩ = .ok (t', s') ∧ t'.Bare ∧
      ∀ path r, t'.recordAt? path = some r ↔ t.Durable path ∧ t.recordAt? path = some r := by
  obtain ⟨orphans, t', built⟩ := exists_ofStored_iff.mpr (mirrored.loadable wf)
  obtain ⟨bare, records, -⟩ := ofStored_eq_ok built
  obtain ⟨s', recovered⟩ := exists_recover (s := ⟨c, fault⟩) scan batch built
  refine ⟨t', s', recovered, bare, fun path r => ?_⟩
  rw [records, mirrored.keeps_iff wf, mirrored.restores_iff wf]

end Coordination.Tree
