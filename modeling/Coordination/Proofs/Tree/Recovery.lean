import Coordination.Proofs.Tree.Records
import Coordination.Tree.Recovery

/-!
# Grafting records

A record is grafted as the attributes of the root, as a new node, or not at all. A tree that grew by
grafting is `Bare`: it is well formed, nobody uses it, and none of its nodes is ephemeral.
-/

namespace Coordination.Tree

variable {t t' : Tree} {path : String} {record : Record}

/-- Well formed, without handles and without ephemeral nodes. -/
structure Bare (t : Tree) : Prop where
  wellFormed : t.WellFormed
  unused : ∀ id n, t.get? id = some n → n.handles = .empty
  persistent : ∀ id n, t.get? id = some n → n.ephemeral = false

/-- The attributes of a node are those of a record. -/
def inscribe (t : Tree) (id : NodeId) (attrs : FinMap String Bytes) : Tree :=
  t.modify id ({ · with attrs })

/-- What becomes of a record: it goes to the root, makes a node, or is an orphan. -/
lemma graft_eq_ok {orphan : Bool} : t.graft (path, record) = .ok (orphan, t') ↔
    (path = Path.root ∧ orphan = false ∧ t' = t.inscribe .root record.attrs) ∨
    (path ≠ Path.root ∧ orphan = false ∧ ∃ above, t.checkCreate path = .ok above ∧
      t' = (t.grow above path record.isDir false).inscribe t.next record.attrs) ∨
    (path ≠ Path.root ∧ orphan = true ∧ t' = t ∧
      ∃ missing, t.checkCreate path = .error (.noSuchParent missing)) := by
  rw [graft]
  by_cases root : path = Path.root
  · rw [if_pos root]
    simp only [root, ne_eq, not_true_eq_false, false_and, or_false, true_and, Except.ok.injEq,
      Prod.mk.injEq]
    exact and_congr eq_comm eq_comm
  · rw [if_neg root]
    simp only [root, ne_eq, not_false_eq_true, false_and, false_or, true_and]
    cases checked : t.checkCreate path with
    | ok above =>
      rw [create_eq_ok record.isDir false checked]
      simp only [Except.ok.injEq, Prod.mk.injEq, exists_eq_left', reduceCtorEq, exists_false,
        and_false, or_false]
      exact and_congr eq_comm eq_comm
    | error why =>
      have failed : t.create path record.isDir false = .error why := by
        rw [create, checked]
        rfl
      rw [failed]
      cases why with
      | noSuchParent missing =>
        simp only [Except.ok.injEq, Prod.mk.injEq, reduceCtorEq, false_and, exists_false, and_false,
          false_or, Except.error.injEq, Failure.noSuchParent.injEq, exists_eq', and_true]
        exact and_congr eq_comm eq_comm
      | _ => simp

/-- Attributes may be written into a bare tree. -/
lemma Bare.inscribe (bare : t.Bare) (id : NodeId) (attrs : FinMap String Bytes) :
    (t.inscribe id attrs).Bare := by
  have old : ∀ i n', (t.inscribe id attrs).get? i = some n' → ∃ n, t.get? i = some n ∧
      n'.handles = n.handles ∧ n'.ephemeral = n.ephemeral := by
    intro i n' found
    obtain ⟨n, foundN, rfl⟩ := FinMap.get?_modify_eq_some.mp found
    refine ⟨n, foundN, ?_⟩
    split <;> exact ⟨rfl, rfl⟩
  refine ⟨bare.wellFormed.modify fun _ => ⟨rfl, rfl, rfl, rfl⟩, ?_, ?_⟩
  · intro i n' found
    obtain ⟨n, foundN, handles, -⟩ := old i n' found
    exact handles.trans (bare.unused i n foundN)
  · intro i n' found
    obtain ⟨n, foundN, -, ephemeral⟩ := old i n' found
    exact ephemeral.trans (bare.persistent i n foundN)

/-- A durable node may be added to a bare tree. -/
lemma Bare.grow (bare : t.Bare) {above : NodeId} (checked : t.checkCreate path = .ok above)
    (isDir : Bool) : (t.grow above path isDir false).Bare := by
  have old : ∀ i n', (t.grow above path isDir false).get? i = some n' →
      (n'.handles = .empty ∧ n'.ephemeral = false) ∨
        ∃ n, t.get? i = some n ∧ n'.handles = n.handles ∧ n'.ephemeral = n.ephemeral := by
    intro i n' found
    rw [get?_grow] at found
    split at found
    · obtain rfl := Option.some.inj found
      exact .inl ⟨rfl, rfl⟩
    · obtain ⟨n, foundN, rfl⟩ := ite_map_eq_some.mp found
      refine .inr ⟨n, foundN, ?_⟩
      split <;> exact ⟨rfl, rfl⟩
  refine ⟨bare.wellFormed.grow checked, ?_, ?_⟩
  · intro i n' found
    rcases old i n' found with ⟨handles, -⟩ | ⟨n, foundN, handles, -⟩
    · exact handles
    · exact handles.trans (bare.unused i n foundN)
  · intro i n' found
    rcases old i n' found with ⟨-, ephemeral⟩ | ⟨n, foundN, -, ephemeral⟩
    · exact ephemeral
    · exact ephemeral.trans (bare.persistent i n foundN)

/-- A new tree is bare. -/
lemma bare_new : new.Bare := by
  have only : ∀ id n, new.get? id = some n → n = .new Path.root true false := by
    intro id n found
    rw [get?, new, FinMap.get?_insert, FinMap.get?_empty] at found
    split at found
    · exact (Option.some.inj found).symm
    · cases found
  refine ⟨wellFormed_new, ?_, ?_⟩
  · intro id n found
    rw [only id n found]
    rfl
  · intro id n found
    rw [only id n found]
    rfl

/-- Grafting keeps a tree bare. -/
lemma Bare.graft (bare : t.Bare) {orphan : Bool}
    (grafted : t.graft (path, record) = .ok (orphan, t')) : t'.Bare := by
  rcases graft_eq_ok.mp grafted with ⟨-, -, rfl⟩ | ⟨-, -, above, checked, rfl⟩ | ⟨-, -, rfl, -⟩
  · exact bare.inscribe _ _
  · exact (bare.grow checked _).inscribe _ _
  · exact bare

/-- Records are grafted one after another, and orphans are set aside. -/
lemma graftAll_cons_eq_ok {rest : List Stored} {orphans : List String} :
    t.graftAll ((path, record) :: rest) = .ok (orphans, t') ↔
      ∃ orphan t₁ orphans₁, t.graft (path, record) = .ok (orphan, t₁) ∧
        t₁.graftAll rest = .ok (orphans₁, t') ∧
        orphans = if orphan then path :: orphans₁ else orphans₁ := by
  rw [graftAll, bind_eq_ok]
  constructor
  · rintro ⟨⟨orphan, t₁⟩, first, others⟩
    obtain ⟨⟨orphans₁, t₂⟩, later, eq⟩ := bind_eq_ok.mp others
    obtain ⟨rfl, rfl⟩ := Prod.mk.inj (Except.ok.inj eq)
    exact ⟨orphan, t₁, orphans₁, first, later, rfl⟩
  · rintro ⟨orphan, t₁, orphans₁, first, later, rfl⟩
    exact ⟨(orphan, t₁), first, bind_eq_ok.mpr ⟨(orphans₁, t'), later, rfl⟩⟩

/-- Grafting records keeps a tree bare. -/
lemma Bare.graftAll (bare : t.Bare) {list : List Stored} {orphans : List String}
    (grafted : t.graftAll list = .ok (orphans, t')) : t'.Bare := by
  induction list generalizing t orphans with
  | nil =>
    obtain ⟨-, rfl⟩ := Prod.mk.inj (Except.ok.inj grafted)
    exact bare
  | cons stored rest ih =>
    obtain ⟨orphan, t₁, orphans₁, first, later, -⟩ := graftAll_cons_eq_ok.mp grafted
    exact ih (bare.graft first) later

/-! ## The records that are grafted -/

/-- A stored record as it stands in a tree, where the root is a directory whatever is stored. -/
def planted (stored : Stored) : Record :=
  if stored.1 = Path.root then ⟨true, stored.2.attrs⟩ else stored.2

/-- A record is planted as it is anywhere but at the root. -/
lemma planted_of_ne (below : path ≠ Path.root) : planted (path, record) = record := if_neg below

/-- The records after attributes were written into a node. -/
lemma recordAt?_inscribe (wf : t.WellFormed) {id : NodeId} {n : Node} (node : t.get? id = some n)
    (attrs : FinMap String Bytes) (path : String) : (t.inscribe id attrs).recordAt? path =
      if path = n.path then if n.ephemeral then none else some ⟨n.isDir, attrs⟩
      else t.recordAt? path := by
  have shape : ∀ m : Node, m.SameShape { m with attrs } := fun _ => ⟨rfl, rfl, rfl, rfl⟩
  exact wf.recordAt?_modify shape node path

/-- A record that is grafted stands at its path, and the others stay. -/
lemma Bare.recordAt?_graft (bare : t.Bare) {orphan : Bool}
    (grafted : t.graft (path, record) = .ok (orphan, t')) (path' : String) : t'.recordAt? path' =
      if path' = path ∧ orphan = false then some (planted (path, record))
      else t.recordAt? path' := by
  have wf := bare.wellFormed
  rcases graft_eq_ok.mp grafted with ⟨rfl, rfl, rfl⟩ | ⟨below, rfl, above, checked, rfl⟩ |
    ⟨-, rfl, rfl, -⟩
  · obtain ⟨n, node, path, isDir, persistent⟩ := wf.root
    rw [recordAt?_inscribe wf node, path, persistent, isDir]
    simp only [and_true, Bool.false_eq_true, if_false, planted, if_true]
  · have grown : (t.grow above path record.isDir false).WellFormed := wf.grow checked
    have node : (t.grow above path record.isDir false).get? t.next =
        some (.new path record.isDir false) := by rw [get?_grow, if_pos rfl]
    rw [recordAt?_inscribe grown node, wf.recordAt?_grow, planted_of_ne below]
    simp only [Node.new, and_true, Bool.false_eq_true, if_false]
    split <;> rfl
  · rw [if_neg]
    rintro ⟨-, ⟨⟩⟩

/-- An orphan is not the root, no node is at its path, and the tree stays as it is. -/
lemma orphan_of_graft (grafted : t.graft (path, record) = .ok (true, t')) :
    path ≠ Path.root ∧ t.recordAt? path = none ∧ t' = t := by
  rcases graft_eq_ok.mp grafted with ⟨-, no, -⟩ | ⟨-, no, -⟩ | ⟨below, -, same, missing, checked⟩
  · cases no
  · cases no
  · refine ⟨below, recordAt?_of_none ?_, same⟩
    rcases bind_eq_error.mp checked with invalid | ⟨_, -, rest⟩
    · rw [Path.validate] at invalid
      split at invalid <;> cases invalid
    · split at rest
      case isTrue => cases rest
      case isFalse vacant => exact Option.not_isSome_iff_eq_none.mp vacant

/-- What is left of a list of records once those that are not orphans have been grafted. -/
structure Grafts (list : List Stored) (orphans : List String) (t t' : Tree) : Prop where
  grafted : ∀ path r, (path, r) ∈ list → path ∉ orphans →
    t'.recordAt? path = some (planted (path, r))
  kept : ∀ path, (∀ r, (path, r) ∈ list → path ∈ orphans) → t'.recordAt? path = t.recordAt? path
  orphan : ∀ path ∈ orphans, path ≠ Path.root ∧ (∃ r, (path, r) ∈ list) ∧
    t.recordAt? path = none

namespace Grafts

variable {rest : List Stored} {orphans : List String} {t₁ : Tree}

/-- An orphan in front of a list changes nothing. -/
lemma cons_orphan (others : Grafts rest orphans t t') (once : ∀ r, (path, r) ∉ rest)
    (below : path ≠ Path.root) (vacant : t.recordAt? path = none) :
    Grafts ((path, record) :: rest) (path :: orphans) t t' := by
  constructor
  case grafted =>
    intro path' r mem out
    obtain ⟨other, out⟩ := not_or.mp (mt List.mem_cons.mpr out)
    rcases List.mem_cons.mp mem with eq | mem
    · exact absurd (Prod.mk.inj eq).1 other
    · exact others.grafted path' r mem out
  case kept =>
    intro path' all
    by_cases other : path' = path
    · subst other
      exact others.kept path' fun r mem => absurd mem (once r)
    · refine others.kept path' fun r mem => ?_
      exact (List.mem_cons.mp (all r (List.mem_cons_of_mem _ mem))).resolve_left other
  case orphan =>
    intro path' mem
    rcases List.mem_cons.mp mem with rfl | mem
    · exact ⟨below, ⟨record, List.mem_cons_self ..⟩, vacant⟩
    · obtain ⟨below', ⟨r, mem⟩, vacant'⟩ := others.orphan path' mem
      exact ⟨below', ⟨r, List.mem_cons_of_mem _ mem⟩, vacant'⟩

/-- A record in front of a list that is not an orphan stands at its path in the end. -/
lemma cons_placed (others : Grafts rest orphans t₁ t') (once : ∀ r, (path, r) ∉ rest)
    (look : ∀ path', t₁.recordAt? path' =
      if path' = path then some (planted (path, record)) else t.recordAt? path') :
    Grafts ((path, record) :: rest) orphans t t' := by
  have settled : path ∉ orphans := by
    intro mem
    obtain ⟨-, ⟨r, mem⟩, -⟩ := others.orphan path mem
    exact once r mem
  have stands : t'.recordAt? path = some (planted (path, record)) := by
    rw [others.kept path fun r mem => absurd mem (once r), look, if_pos rfl]
  constructor
  case grafted =>
    intro path' r mem out
    rcases List.mem_cons.mp mem with eq | mem
    · obtain ⟨rfl, rfl⟩ := Prod.mk.inj eq
      exact stands
    · exact others.grafted path' r mem out
  case kept =>
    intro path' all
    have other : path' ≠ path := by
      rintro rfl
      exact settled (all record (List.mem_cons_self ..))
    rw [others.kept path' fun r mem => all r (List.mem_cons_of_mem _ mem), look, if_neg other]
  case orphan =>
    intro path' mem
    have other : path' ≠ path := by
      rintro rfl
      exact settled mem
    obtain ⟨below, ⟨r, mem⟩, vacant⟩ := others.orphan path' mem
    rw [look, if_neg other] at vacant
    exact ⟨below, ⟨r, List.mem_cons_of_mem _ mem⟩, vacant⟩

end Grafts

/-- Records with different paths are grafted one by one. -/
lemma Bare.grafts (bare : t.Bare) {list : List Stored} {orphans : List String}
    (apart : (list.map Prod.fst).Nodup) (done : t.graftAll list = .ok (orphans, t')) :
    Grafts list orphans t t' := by
  induction list generalizing t orphans with
  | nil =>
    obtain ⟨rfl, rfl⟩ := Prod.mk.inj (Except.ok.inj done)
    exact ⟨fun _ _ mem => (nomatch mem), fun _ _ => rfl, fun _ mem => (nomatch mem)⟩
  | cons stored rest ih =>
    obtain ⟨path, r⟩ := stored
    obtain ⟨fresh, apart⟩ := List.nodup_cons.mp apart
    have once : ∀ r', (path, r') ∉ rest := fun r' mem =>
      fresh (List.mem_map.mpr ⟨(path, r'), mem, rfl⟩)
    obtain ⟨orphan, t₁, orphans₁, first, later, rfl⟩ := graftAll_cons_eq_ok.mp done
    have others := ih (bare.graft first) apart later
    have look := bare.recordAt?_graft first
    cases orphan with
    | true =>
      obtain ⟨below, vacant, rfl⟩ := orphan_of_graft first
      exact others.cons_orphan once below vacant
    | false =>
      simp only [and_true] at look
      exact others.cons_placed once look

/-- How a recovery succeeds: the pairs are read, the tree is built, and the orphans are deleted. -/
lemma recover_eq_ok {s s' : Store} (recovered : recover s = .ok (t, s')) : s.fault .scan = none ∧
    ∃ orphans, ofStored (s.contents.scan Record.keyStem) = .ok (orphans, t) ∧
      s' = { s with contents := s.contents.applyAll (orphans.map (Write.delete <| Record.key ·)) } := by
  obtain ⟨pairs, scanned, rest⟩ := bind_eq_ok.mp recovered
  obtain ⟨faultless, rfl⟩ := Store.call_eq_ok.mp scanned
  refine ⟨faultless, ?_⟩
  split at rest
  · cases rest
  · rename_i tree built
    obtain ⟨rfl, rfl⟩ := Prod.mk.inj (Except.ok.inj rest)
    exact ⟨[], built, rfl⟩
  · rename_i orphans tree _ built
    obtain ⟨st, deleted, eq⟩ := bind_eq_ok.mp rest
    obtain ⟨-, rfl⟩ := Store.call_eq_ok.mp deleted
    obtain ⟨rfl, rfl⟩ := Prod.mk.inj (Except.ok.inj eq)
    exact ⟨orphans, built, rfl⟩

/-- A recovery succeeds if the records can be grafted and no fault answers its calls. -/
lemma exists_recover {s : Store} (scan : s.fault .scan = none) (batch : s.fault .batch = none)
    {orphans : List String} (built : ofStored (s.contents.scan Record.keyStem) = .ok (orphans, t)) :
    ∃ s', recover s = .ok (t, s') := by
  have scanned : s.scan Record.keyStem = .ok (s.contents.scan Record.keyStem) :=
    Store.call_eq_ok.mpr ⟨scan, rfl⟩
  rw [recover, scanned]
  simp only [bind, Except.bind, built]
  cases orphans with
  | nil => exact ⟨s, rfl⟩
  | cons orphan orphans =>
    have deleted : ∀ writes, s.batch writes =
        .ok { s with contents := s.contents.applyAll writes } :=
      fun _ => Store.call_eq_ok.mpr ⟨batch, rfl⟩
    dsimp only
    rw [deleted]
    exact ⟨_, rfl⟩

/-- A recovered tree is bare. -/
lemma bare_of_recover {s s' : Store} (recovered : recover s = .ok (t, s')) : t.Bare := by
  obtain ⟨-, orphans, built, -⟩ := recover_eq_ok recovered
  obtain ⟨list, -, grafted⟩ := bind_eq_ok.mp built
  exact bare_new.graftAll grafted

end Coordination.Tree
