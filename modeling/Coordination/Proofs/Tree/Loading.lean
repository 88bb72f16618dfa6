import Coordination.Proofs.Tree.Recovery

/-!
# What a store is loaded as

A path of a store is kept if every path above it is stored, up to the root: so says `Keeps`, without
regard to order. Records are grafted in one pass, and only because parents come before children does
the pass find the kept paths: `Loading` is what it keeps from record to record. It fails if and only
if the store is not `Loadable`.
-/

namespace Coordination

namespace Contents

variable {c : Contents} {path : String} {r r' : Record}

/-- Something is stored under the key of a path. -/
def Stores (c : Contents) (path : String) : Prop := ∃ v, c.get? (Record.key path) = some v

/-- What is stored under the key of a path is read as a record. -/
def Holds (c : Contents) (path : String) (r : Record) : Prop :=
  ∃ v, c.get? (Record.key path) = some v ∧ Record.decode v = .ok r

/-- The root is kept, and so is every stored path whose parent is kept. -/
inductive Keeps (c : Contents) : String → Prop
  | root : Keeps c Path.root
  | child {path : String} (stored : c.Stores path) (above : Keeps c (Path.parent path)) :
    Keeps c path

/-- The record that a kept path is loaded with. The root is a directory whatever is stored. -/
inductive Restores (c : Contents) : String → Record → Prop
  | bare (vacant : ¬ c.Stores Path.root) : Restores c Path.root ⟨true, .empty⟩
  | root {r : Record} (held : c.Holds Path.root r) : Restores c Path.root ⟨true, r.attrs⟩
  | child {path : String} {r : Record} (below : path ≠ Path.root) (held : c.Holds path r) :
    Restores c path r

/-- A path under which something may be stored: it is not directly below a file that is kept. -/
structure Admits (c : Contents) (path : String) : Prop where
  valid : Path.isValid path = true
  directory : c.Keeps (Path.parent path) → Path.parent path ≠ Path.root →
    ∀ r, c.Holds (Path.parent path) r → r.isDir = true

/-- Everything that is stored under keys of records is the record of a path and may be there. -/
structure Loadable (c : Contents) : Prop where
  readable : ∀ k v, c.get? k = some v → Record.keyStem <+: k →
    ∃ path r, k = Record.key path ∧ Record.decode v = .ok r
  admits : ∀ path, c.Stores path → c.Admits path

/-- Where a record is held something is stored. -/
lemma Holds.stores (held : c.Holds path r) : c.Stores path := by
  obtain ⟨v, found, -⟩ := held
  exact ⟨v, found⟩

/-- One record is held under each path. -/
lemma Holds.unique (held : c.Holds path r) (held' : c.Holds path r') : r = r' := by
  obtain ⟨v, found, value⟩ := held
  obtain ⟨v', found', value'⟩ := held'
  obtain rfl := Option.some.inj (found.symm.trans found')
  exact Except.ok.inj (value.symm.trans value')

/-- What is stored is kept if its parent is. -/
lemma keeps_iff_parent (stored : c.Stores path) : c.Keeps path ↔ c.Keeps (Path.parent path) := by
  constructor
  · intro kept
    cases kept with
    | root => exact .root
    | child _ above => exact above
  · exact .child stored

/-- The root may always be stored. -/
lemma admits_root : c.Admits Path.root where
  valid := Path.isValid_root
  directory := fun _ below => absurd rfl below

/-- Deleting the records of some paths leaves everything else. -/
lemma get?_deleteAll (paths : List String) (k : Bytes) :
    (c.applyAll (paths.map (Write.delete <| Record.key ·))).get? k =
      if k ∈ paths.map Record.key then none else c.get? k := by
  induction paths generalizing c with
  | nil => simp [applyAll]
  | cons path rest ih =>
    have step : c.applyAll ((path :: rest).map (Write.delete <| Record.key ·)) =
        applyAll (c.erase (Record.key path)) (rest.map (Write.delete <| Record.key ·)) :=
      rfl
    rw [step, ih, FinMap.get?_erase]
    by_cases head : k = Record.key path
    · have mem : k ∈ (path :: rest).map Record.key := List.mem_cons.mpr (.inl head)
      rw [if_pos head, if_pos mem, ite_self]
    · have same : k ∈ (path :: rest).map Record.key ↔ k ∈ rest.map Record.key :=
        List.mem_cons.trans (or_iff_right head)
      rw [if_neg head]
      exact if_congr same.symm rfl rfl

end Contents

namespace Tree

variable {t t' : Tree} {c : Contents} {path : String} {r : Record} {list : List Stored}
variable {orphan : Bool} {orphans : List String}

/-! ## Reading the records of a store -/

/-- A binding is read as the path of its key and the record in its value. -/
lemma readStored_eq_ok {b : Bytes × Bytes} (stem : Record.keyStem <+: b.1) :
    readStored b = .ok (path, r) ↔ b.1 = Record.key path ∧ Record.decode b.2 = .ok r := by
  rw [← Record.decode_drop_eq_ok stem, readStored]
  cases Text.Utf8.decode (b.1.drop Record.keyStem.length) with
  | error why => simp
  | ok path' =>
    simp only [bind_eq_ok, Except.ok.injEq]
    constructor
    · rintro ⟨r', read, eq⟩
      obtain ⟨rfl, rfl⟩ := Prod.mk.inj (Except.ok.inj eq)
      exact ⟨rfl, read⟩
    · rintro ⟨rfl, read⟩
      exact ⟨r, read, rfl⟩

/-- The list holds the records of a store, each once. -/
structure Reads (c : Contents) (list : List Stored) : Prop where
  mem : ∀ path r, (path, r) ∈ list ↔ c.Holds path r
  apart : (list.map Prod.fst).Nodup
  all : ∀ k v, c.get? k = some v → Record.keyStem <+: k →
    ∃ path r, k = Record.key path ∧ (path, r) ∈ list

/-- Reading all that is scanned reads every record. -/
lemma reads_of_mapM (read : (c.scan Record.keyStem).mapM readStored = .ok list) :
    Reads c list := by
  have pairs : ∀ b ∈ c.scan Record.keyStem, ∀ stored, readStored b = .ok stored →
      Record.key stored.1 = b.1 ∧ Record.decode b.2 = .ok stored.2 := by
    rintro b mem ⟨path, r⟩ first
    obtain ⟨key, value⟩ := (readStored_eq_ok (Contents.mem_scan.mp mem).2).mp first
    exact ⟨key.symm, value⟩
  constructor
  case mem =>
    intro path r
    rw [mem_of_mapM read]
    constructor
    · rintro ⟨b, mem, first⟩
      obtain ⟨key, value⟩ := pairs b mem (path, r) first
      exact ⟨b.2, key ▸ (Contents.mem_scan.mp mem).1, value⟩
    · rintro ⟨v, found, value⟩
      have stem := Record.keyStem_prefix_key path
      exact ⟨(Record.key path, v), Contents.mem_scan.mpr ⟨found, stem⟩,
        (readStored_eq_ok stem).mpr ⟨rfl, value⟩⟩
  case apart =>
    have keys : list.map (fun stored => Record.key stored.1) =
        (c.scan Record.keyStem).map Prod.fst :=
      map_of_mapM read fun b mem stored first => (pairs b mem stored first).1
    have once : ((c.scan Record.keyStem).map Prod.fst).Nodup := Contents.nodup_scan
    rw [← keys] at once
    have paths : (list.map Prod.fst).map Record.key = list.map fun stored => Record.key stored.1 :=
      List.map_map
    rw [← paths] at once
    exact once.of_map _
  case all =>
    intro k v found stem
    have pair : (k, v) ∈ c.scan Record.keyStem := Contents.mem_scan.mpr ⟨found, stem⟩
    obtain ⟨⟨path, r⟩, mem, first⟩ := exists_of_mapM read pair
    exact ⟨path, r, ((readStored_eq_ok stem).mp first).1, mem⟩

namespace Reads

variable (reads : Reads c list)
include reads

/-- What is stored is a record, if all could be read. -/
lemma exists_holds (stored : c.Stores path) : ∃ r, c.Holds path r := by
  obtain ⟨v, found⟩ := stored
  obtain ⟨path', r, key, mem⟩ := reads.all _ v found (Record.keyStem_prefix_key path)
  obtain rfl := Record.key_injective key
  exact ⟨r, (reads.mem path r).mp mem⟩

/-- What is stored is what was read. -/
lemma stores_iff : c.Stores path ↔ ∃ r, (path, r) ∈ list := by
  constructor
  · intro stored
    obtain ⟨r, held⟩ := reads.exists_holds stored
    exact ⟨r, (reads.mem path r).mpr held⟩
  · rintro ⟨r, mem⟩
    exact ((reads.mem path r).mp mem).stores

/-- The order in which records are grafted does not matter to what they are. -/
lemma byDepth : Reads c (byDepth list) := by
  have perm : (Tree.byDepth list).Perm list := List.mergeSort_perm ..
  constructor
  case mem =>
    intro path r
    exact perm.mem_iff.trans (reads.mem path r)
  case apart => exact (perm.map Prod.fst).nodup_iff.mpr reads.apart
  case all =>
    intro k v found stem
    obtain ⟨path, r, key, mem⟩ := reads.all k v found stem
    exact ⟨path, r, key, perm.mem_iff.mpr mem⟩

end Reads

/-- The records are sorted by the depth of their paths. -/
lemma sorted_byDepth (list : List Stored) :
    (byDepth list).Pairwise fun a b => Path.depth a.1 ≤ Path.depth b.1 := by
  have sorted : (byDepth list).Pairwise fun a b =>
      decide (Path.depth a.1 ≤ Path.depth b.1) = true :=
    List.pairwise_mergeSort (fun a b c => by simpa using Nat.le_trans)
      (fun a b => by simpa using Nat.le_total _ _) list
  exact sorted.imp of_decide_eq_true

/-- The records of a store are read unless one of them is no record of a text. -/
lemma exists_mapM_readStored : (∃ list, (c.scan Record.keyStem).mapM readStored = .ok list) ↔
    ∀ k v, c.get? k = some v → Record.keyStem <+: k →
      ∃ path r, k = Record.key path ∧ Record.decode v = .ok r := by
  constructor
  · rintro ⟨list, read⟩ k v found stem
    obtain ⟨path, r, rfl, mem⟩ := (reads_of_mapM read).all k v found stem
    obtain ⟨v', found', value⟩ := ((reads_of_mapM read).mem path r).mp mem
    obtain rfl := Option.some.inj (found.symm.trans found')
    exact ⟨path, r, rfl, value⟩
  · intro readable
    refine exists_mapM_eq_ok fun b mem => ?_
    obtain ⟨found, stem⟩ := Contents.mem_scan.mp mem
    obtain ⟨path, r, key, value⟩ := readable b.1 b.2 found stem
    exact ⟨(path, r), (readStored_eq_ok stem).mpr ⟨key, value⟩⟩

/-! ## The tree before anything is grafted -/

/-- A new tree has no record but that of the root, which has no attributes. -/
lemma recordAt?_new (kept : new.recordAt? path = some r) :
    path = Path.root ∧ r = ⟨true, .empty⟩ := by
  obtain ⟨i, n, node, rfl, -, rfl⟩ := wellFormed_new.recordAt?_eq_some.mp kept
  rw [get?, new, FinMap.get?_insert, FinMap.get?_empty] at node
  split at node
  · obtain rfl := Option.some.inj node
    exact ⟨rfl, rfl⟩
  · cases node

namespace Bare

variable (bare : t.Bare)
include bare

/-- The nodes of a bare tree are those that have a record. -/
lemma recordAt?_eq_some : t.recordAt? path = some r ↔
    ∃ i n, t.get? i = some n ∧ n.path = path ∧ n.record = r := by
  rw [bare.wellFormed.recordAt?_eq_some]
  constructor
  · rintro ⟨i, n, node, path, -, record⟩
    exact ⟨i, n, node, path, record⟩
  · rintro ⟨i, n, node, path, record⟩
    exact ⟨i, n, node, path, bare.persistent i n node, record⟩

/-- A path without a record is not in a tree of durable nodes. -/
lemma find?_eq_none (vacant : t.recordAt? path = none) : t.find? path = none := by
  cases found : t.find? path with
  | none => rfl
  | some i =>
    obtain ⟨n, node, -⟩ := bare.wellFormed.get?_of_find? found
    rw [recordAt?_of_find? found, record?_of_get? node, bare.persistent i n node] at vacant
    cases vacant

end Bare

/-! ## One record after another -/

/-- A tree into which the kept records of a store have been grafted, while a list of them is left. -/
structure Loading (c : Contents) (list : List Stored) (t : Tree) : Prop where
  bare : t.Bare
  sound : ∀ path r, path ≠ Path.root → t.recordAt? path = some r → c.Keeps path ∧ c.Holds path r
  complete : ∀ path r, path ≠ Path.root → c.Keeps path → c.Holds path r →
    t.recordAt? path = some r ∨ (path, r) ∈ list
  given : ∀ path r, (path, r) ∈ list →
    c.Holds path r ∧ (path ≠ Path.root → t.recordAt? path = none)
  readable : ∀ path, c.Stores path → ∃ r, c.Holds path r
  apart : (list.map Prod.fst).Nodup
  sorted : list.Pairwise fun a b => Path.depth a.1 ≤ Path.depth b.1

/-- Before anything is grafted, everything is left. -/
lemma Reads.loading (reads : Reads c list) : Loading c (Tree.byDepth list) new := by
  have vacant : ∀ path, path ≠ Path.root → new.recordAt? path = none := by
    intro path below
    cases kept : new.recordAt? path with
    | none => rfl
    | some r => exact absurd (recordAt?_new kept).1 below
  refine ⟨bare_new, ?_, ?_, ?_, ?_, reads.byDepth.apart, sorted_byDepth list⟩
  · intro path r below kept
    rw [vacant path below] at kept
    cases kept
  · exact fun path r _ _ held => .inr ((reads.byDepth.mem path r).mpr held)
  · exact fun path r mem => ⟨(reads.byDepth.mem path r).mp mem, vacant path⟩
  · exact fun path => reads.exists_holds

namespace Loading

variable (loading : Loading c ((path, r) :: list) t)
include loading

/-- The record at hand is one that is held. -/
lemma holds : c.Holds path r := (loading.given path r (List.mem_cons_self ..)).1

/-- What is above the next path has been grafted if it is kept, as it is less deep. -/
lemma find?_parent_iff (valid : Path.isValid path = true) (below : path ≠ Path.root) :
    (∃ above, t.find? (Path.parent path) = some above) ↔ c.Keeps (Path.parent path) := by
  have wf := loading.bare.wellFormed
  by_cases top : Path.parent path = Path.root
  · rw [top]
    exact iff_of_true ⟨_, wf.find?_root⟩ .root
  constructor
  · rintro ⟨above, found⟩
    obtain ⟨p, node, pathP⟩ := wf.get?_of_find? found
    have kept := loading.bare.recordAt?_eq_some.mpr ⟨above, p, node, pathP, rfl⟩
    exact (loading.sound _ _ top kept).1
  · intro kept
    have stored : c.Stores (Path.parent path) := by
      generalize Path.parent path = above at kept top
      cases kept with
      | root => exact absurd rfl top
      | child stored _ => exact stored
    obtain ⟨r', held⟩ := loading.readable _ stored
    rcases loading.complete _ r' top kept held with grafted | mem
    · obtain ⟨i, n, node, pathN, -⟩ := loading.bare.recordAt?_eq_some.mp grafted
      exact ⟨i, pathN ▸ wf.find?_path node⟩
    · -- what is still to be grafted is as deep as the path, but its parent is not
      have shallow := Path.depth_parent_lt valid below top
      rcases List.mem_cons.mp mem with eq | mem
      · exact absurd (Prod.mk.inj eq).1 (Path.parent_ne_self valid below)
      · have deep := (List.pairwise_cons.mp loading.sorted).1 _ mem
        dsimp only at deep
        omega

/-- What has been grafted above the next path is a directory if what is stored there is one. -/
lemma isDir_iff {above : NodeId} {p : Node} (found : t.find? (Path.parent path) = some above)
    (node : t.get? above = some p) : p.isDir = true ↔
      (Path.parent path ≠ Path.root → ∀ r, c.Holds (Path.parent path) r → r.isDir = true) := by
  have wf := loading.bare.wellFormed
  obtain ⟨p', node', pathP⟩ := wf.get?_of_find? found
  obtain rfl : p = p' := Option.some.inj (node.symm.trans node')
  by_cases top : Path.parent path = Path.root
  · rw [top, wf.find?_root] at found
    obtain rfl := Option.some.inj found
    obtain ⟨root, nodeRoot, -, isDir, -⟩ := wf.root
    obtain rfl : p = root := Option.some.inj (node.symm.trans nodeRoot)
    exact iff_of_true isDir fun below => absurd top below
  · have kept := loading.bare.recordAt?_eq_some.mpr ⟨above, p, node, pathP, rfl⟩
    have held := (loading.sound _ _ top kept).2
    constructor
    · rintro isDir - r' held'
      rw [← held.unique held']
      exact isDir
    · exact fun directory => directory top _ held

/-- The next path can be created if it is admitted and its parent is kept. -/
lemma checkCreate_iff (below : path ≠ Path.root) :
    (∃ above, t.checkCreate path = .ok above) ↔
      c.Admits path ∧ c.Keeps (Path.parent path) := by
  have new := loading.bare.find?_eq_none ((loading.given path r (List.mem_cons_self ..)).2 below)
  constructor
  · rintro ⟨above, checked⟩
    obtain ⟨valid, -, found, p, node, isDir⟩ := checkCreate_eq_ok_iff.mp checked
    exact ⟨⟨valid, fun _ => (loading.isDir_iff found node).mp isDir⟩,
      (loading.find?_parent_iff valid below).mp ⟨above, found⟩⟩
  · rintro ⟨⟨valid, directory⟩, kept⟩
    obtain ⟨above, found⟩ := (loading.find?_parent_iff valid below).mpr kept
    obtain ⟨p, node, -⟩ := loading.bare.wellFormed.get?_of_find? found
    have isDir := (loading.isDir_iff found node).mpr (directory kept)
    exact ⟨above, checkCreate_eq_ok_iff.mpr ⟨valid, new, found, p, node, isDir⟩⟩

/-- It is an orphan if it is a path and its parent is not kept. -/
lemma checkCreate_orphan_iff (below : path ≠ Path.root) :
    (∃ missing, t.checkCreate path = .error (.noSuchParent missing)) ↔
      Path.isValid path = true ∧ ¬ c.Keeps (Path.parent path) := by
  have new := loading.bare.find?_eq_none ((loading.given path r (List.mem_cons_self ..)).2 below)
  constructor
  · rintro ⟨missing, checked⟩
    have valid : Path.isValid path = true := by
      by_contra invalid
      rw [checkCreate, Path.validate, if_neg invalid] at checked
      cases checked
    refine ⟨valid, fun kept => ?_⟩
    obtain ⟨above, found⟩ := (loading.find?_parent_iff valid below).mpr kept
    obtain ⟨p, node, -⟩ := loading.bare.wellFormed.get?_of_find? found
    rw [checkCreate, Path.validate_of_isValid valid] at checked
    simp only [bind, Except.bind, new, found, node, Option.isSome_none, Bool.false_eq_true,
      if_false] at checked
    split at checked <;> cases checked
  · rintro ⟨valid, lost⟩
    refine ⟨path, checkCreate_of_missing valid new ?_⟩
    by_contra found
    obtain ⟨above, found⟩ := Option.ne_none_iff_exists'.mp found
    exact lost ((loading.find?_parent_iff valid below).mp ⟨above, found⟩)

/-- The next record can be grafted if its path is admitted. -/
lemma exists_graft_iff :
    (∃ orphan t', t.graft (path, r) = .ok (orphan, t')) ↔ c.Admits path := by
  by_cases below : path = Path.root
  · subst below
    exact iff_of_true ⟨false, _, graft_eq_ok.mpr (.inl ⟨rfl, rfl, rfl⟩)⟩ Contents.admits_root
  constructor
  · rintro ⟨orphan, t', grafted⟩
    rcases graft_eq_ok.mp grafted with ⟨top, -⟩ | ⟨-, -, above, checked, -⟩ |
      ⟨-, -, -, missing, checked⟩
    · exact absurd top below
    · exact ((loading.checkCreate_iff below).mp ⟨above, checked⟩).1
    · obtain ⟨valid, lost⟩ := (loading.checkCreate_orphan_iff below).mp ⟨missing, checked⟩
      exact ⟨valid, fun kept => absurd kept lost⟩
  · intro admitted
    by_cases kept : c.Keeps (Path.parent path)
    · obtain ⟨above, checked⟩ := (loading.checkCreate_iff below).mpr ⟨admitted, kept⟩
      exact ⟨false, _, graft_eq_ok.mpr (.inr (.inl ⟨below, rfl, above, checked, rfl⟩))⟩
    · obtain ⟨missing, checked⟩ := (loading.checkCreate_orphan_iff below).mpr ⟨admitted.valid, kept⟩
      exact ⟨true, t, graft_eq_ok.mpr (.inr (.inr ⟨below, rfl, rfl, missing, checked⟩))⟩

/-- A record that can be grafted is an orphan unless its path is kept. -/
lemma orphan_iff (grafted : t.graft (path, r) = .ok (orphan, t')) :
    orphan = false ↔ c.Keeps path := by
  rw [Contents.keeps_iff_parent loading.holds.stores]
  rcases graft_eq_ok.mp grafted with ⟨rfl, rfl, -⟩ | ⟨below, rfl, above, checked, -⟩ |
    ⟨below, rfl, -, missing, checked⟩
  · exact iff_of_true rfl .root
  · exact iff_of_true rfl ((loading.checkCreate_iff below).mp ⟨above, checked⟩).2
  · exact iff_of_false Bool.noConfusion
      ((loading.checkCreate_orphan_iff below).mp ⟨missing, checked⟩).2

/-- One record less is left. -/
lemma step (grafted : t.graft (path, r) = .ok (orphan, t')) : Loading c list t' := by
  have fate := loading.orphan_iff grafted
  have look := loading.bare.recordAt?_graft grafted
  obtain ⟨fresh, apart⟩ := List.nodup_cons.mp loading.apart
  refine ⟨loading.bare.graft grafted, ?_, ?_, ?_, loading.readable, apart,
    (List.pairwise_cons.mp loading.sorted).2⟩
  · intro path' r' below kept
    rw [look] at kept
    split at kept
    case isTrue eq =>
      obtain ⟨rfl, stays⟩ := eq
      rw [planted_of_ne below] at kept
      obtain rfl := Option.some.inj kept
      exact ⟨fate.mp stays, loading.holds⟩
    case isFalse => exact loading.sound path' r' below kept
  · intro path' r' below kept held
    rw [look]
    rcases loading.complete path' r' below kept held with old | mem
    · -- what stands already is not what is grafted now
      have other : ¬ (path' = path ∧ orphan = false) := by
        rintro ⟨rfl, -⟩
        have vacant := (loading.given path' r (List.mem_cons_self ..)).2 below
        rw [old] at vacant
        cases vacant
      exact .inl ((if_neg other).trans old)
    · rcases List.mem_cons.mp mem with eq | mem
      · obtain ⟨rfl, rfl⟩ := Prod.mk.inj eq
        rw [planted_of_ne below]
        exact .inl (if_pos ⟨rfl, fate.mpr kept⟩)
      · exact .inr mem
  · intro path' r' mem
    obtain ⟨held, vacant⟩ := loading.given path' r' (List.mem_cons_of_mem _ mem)
    have other : path' ≠ path := by
      rintro rfl
      exact fresh (List.mem_map.mpr ⟨(path', r'), mem, rfl⟩)
    refine ⟨held, fun below => ?_⟩
    rw [look, if_neg fun both => other both.1]
    exact vacant below

end Loading

/-! ## All records -/

/-- The pass succeeds if every path is admitted. -/
lemma Loading.exists_graftAll_iff (loading : Loading c list t) :
    (∃ orphans t', t.graftAll list = .ok (orphans, t')) ↔
      ∀ path r, (path, r) ∈ list → c.Admits path := by
  induction list generalizing t with
  | nil => exact iff_of_true ⟨[], t, rfl⟩ nofun
  | cons stored rest ih =>
    obtain ⟨path, r⟩ := stored
    constructor
    · rintro ⟨orphans, t', done⟩ path' r' mem
      obtain ⟨orphan, t₁, orphans₁, first, later, -⟩ := graftAll_cons_eq_ok.mp done
      rcases List.mem_cons.mp mem with eq | mem
      · rw [(Prod.mk.inj eq).1]
        exact loading.exists_graft_iff.mp ⟨orphan, t₁, first⟩
      · exact (ih (loading.step first)).mp ⟨orphans₁, t', later⟩ path' r' mem
    · intro admitted
      obtain ⟨orphan, t₁, first⟩ :=
        loading.exists_graft_iff.mpr (admitted path r (List.mem_cons_self ..))
      obtain ⟨orphans₁, t', later⟩ := (ih (loading.step first)).mpr fun path' r' mem =>
        admitted path' r' (List.mem_cons_of_mem _ mem)
      exact ⟨_, t', graftAll_cons_eq_ok.mpr ⟨orphan, t₁, orphans₁, first, later, rfl⟩⟩

/-- Nothing is left in the end, and the orphans are those that are not kept. -/
lemma Loading.graftAll (loading : Loading c list t) (done : t.graftAll list = .ok (orphans, t')) :
    Loading c [] t' ∧ orphans.Sublist (list.map Prod.fst) ∧
      ∀ path, path ∈ orphans ↔ (∃ r, (path, r) ∈ list) ∧ ¬ c.Keeps path := by
  induction list generalizing t orphans with
  | nil =>
    obtain ⟨rfl, rfl⟩ := Prod.mk.inj (Except.ok.inj done)
    exact ⟨loading, .slnil, fun path => by simp⟩
  | cons stored rest ih =>
    obtain ⟨path, r⟩ := stored
    obtain ⟨orphan, t₁, orphans₁, first, later, rfl⟩ := graftAll_cons_eq_ok.mp done
    obtain ⟨loaded, part, others⟩ := ih (loading.step first) later
    have fate := loading.orphan_iff first
    refine ⟨loaded, ?_, fun path' => ?_⟩
    · cases orphan with
      | true => exact part.cons_cons path
      | false => exact part.cons path
    · have head : (∃ r', (path', r') ∈ (path, r) :: rest) ↔
          path' = path ∨ ∃ r', (path', r') ∈ rest := by
        simp only [List.mem_cons, Prod.mk.injEq, exists_or, exists_and_left, exists_eq, and_true]
      rw [head, or_and_right, ← others]
      cases orphan with
      | true =>
        have lost : ¬ c.Keeps path := fun kept => Bool.noConfusion (fate.mpr kept)
        simp only [if_true, List.mem_cons]
        exact or_congr_left (iff_self_and.mpr fun eq => eq ▸ lost)
      | false =>
        have kept := fate.mp rfl
        simp only [Bool.false_eq_true, if_false]
        exact (or_iff_right fun ⟨eq, lost⟩ => lost (eq ▸ kept)).symm

/-- A store is loaded if it can be. -/
lemma exists_ofStored_iff : (∃ orphans t, ofStored (c.scan Record.keyStem) = .ok (orphans, t)) ↔
    c.Loadable := by
  constructor
  · rintro ⟨orphans, t, built⟩
    obtain ⟨list, read, grafted⟩ := bind_eq_ok.mp built
    have reads := reads_of_mapM read
    refine ⟨exists_mapM_readStored.mp ⟨list, read⟩, fun path stored => ?_⟩
    obtain ⟨r, mem⟩ := reads.byDepth.stores_iff.mp stored
    exact reads.loading.exists_graftAll_iff.mp ⟨orphans, t, grafted⟩ path r mem
  · rintro ⟨readable, admits⟩
    obtain ⟨list, read⟩ := exists_mapM_readStored.mpr readable
    have reads := reads_of_mapM read
    obtain ⟨orphans, t, grafted⟩ := reads.loading.exists_graftAll_iff.mpr fun path r mem =>
      admits path (reads.byDepth.stores_iff.mpr ⟨r, mem⟩)
    exact ⟨orphans, t, bind_eq_ok.mpr ⟨list, read, grafted⟩⟩

/-- The root is given its record if there is one, and stays as it was made if not. -/
lemma recordAt?_root_iff (reads : Reads c list)
    (grafted : new.graftAll (byDepth list) = .ok (orphans, t)) :
    t.recordAt? Path.root = some r ↔ c.Restores Path.root r := by
  have grafts := bare_new.grafts reads.byDepth.apart grafted
  by_cases stored : c.Stores Path.root
  · obtain ⟨r₀, held⟩ := reads.exists_holds stored
    have rooted : Path.root ∉ orphans := fun mem => (grafts.orphan _ mem).1 rfl
    rw [grafts.grafted _ r₀ ((reads.byDepth.mem _ _).mpr held) rooted]
    constructor
    · intro eq
      obtain rfl := Option.some.inj eq
      exact .root held
    · intro restored
      cases restored with
      | bare vacant => exact absurd stored vacant
      | root held' =>
        rw [held.unique held']
        rfl
      | child below => exact absurd rfl below
  · obtain ⟨attrs, kept⟩ := wellFormed_new.recordAt?_root
    obtain ⟨-, empty⟩ := recordAt?_new kept
    rw [grafts.kept Path.root fun r mem =>
      absurd ((reads.byDepth.mem _ r).mp mem).stores stored, kept, empty]
    constructor
    · intro eq
      obtain rfl := Option.some.inj eq
      exact .bare stored
    · intro restored
      cases restored with
      | bare => rfl
      | root held => exact absurd held.stores stored
      | child below => exact absurd rfl below

/-- What is loaded: the kept paths with their records, while the others are orphans. -/
lemma ofStored_eq_ok (built : ofStored (c.scan Record.keyStem) = .ok (orphans, t)) :
    t.Bare ∧ (∀ path r, t.recordAt? path = some r ↔ c.Keeps path ∧ c.Restores path r) ∧
      orphans.Nodup ∧ ∀ path, path ∈ orphans ↔ c.Stores path ∧ ¬ c.Keeps path := by
  obtain ⟨list, read, grafted⟩ := bind_eq_ok.mp built
  have reads := reads_of_mapM read
  obtain ⟨loaded, part, lost⟩ := reads.loading.graftAll grafted
  refine ⟨loaded.bare, fun path r => ?_, reads.byDepth.apart.sublist part, fun path => ?_⟩
  · by_cases below : path = Path.root
    · subst below
      rw [and_iff_right .root]
      exact recordAt?_root_iff reads grafted
    · constructor
      · intro kept
        obtain ⟨keeps, held⟩ := loaded.sound path r below kept
        exact ⟨keeps, .child below held⟩
      · rintro ⟨keeps, restored⟩
        cases restored with
        | bare => exact absurd rfl below
        | root => exact absurd rfl below
        | child _ held =>
          exact (loaded.complete path r below keeps held).resolve_right List.not_mem_nil
  · rw [lost, reads.byDepth.stores_iff]

end Tree

end Coordination
