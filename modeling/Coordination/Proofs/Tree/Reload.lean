import Coordination.Proofs.Tree.Loading

/-!
# Recovery from any store

A recovery is followed call by call. It asks for the records in one scan and deletes the orphans in
one batch, the last thing it does, so that a failure leaves the store as it was. What is left after
the orphans have gone is loaded in the same order, so it makes the same tree again.
-/

namespace Coordination

/-! ## Parts of a sorted list -/

section Lists

variable {α β : Type} {le : α → α → Bool}

/-- Of a list that goes over from elements with a property to those without, the property tells the
first part. -/
lemma filter_append_eq_left {p : α → Bool} {l₁ l₂ : List α} (left : ∀ a ∈ l₁, p a = true)
    (right : ∀ a ∈ l₂, p a = false) : (l₁ ++ l₂).filter p = l₁ := by
  have none : l₂.filter p = [] :=
    List.filter_eq_nil_iff.mpr fun a mem => by simp [right a mem]
  rw [List.filter_append, List.filter_eq_self.mpr left, none, List.append_nil]

/-- Where a list goes over from elements with a property to those without is determined. -/
lemma eq_of_append_eq {p : α → Bool} {l₁ l₂ m₁ m₂ : List α} (same : l₁ ++ l₂ = m₁ ++ m₂)
    (left : ∀ a ∈ l₁, p a = true) (right : ∀ a ∈ l₂, p a = false) (left' : ∀ a ∈ m₁, p a = true)
    (right' : ∀ a ∈ m₂, p a = false) : l₁ = m₁ ∧ l₂ = m₂ := by
  have first : l₁ = m₁ := by
    rw [← filter_append_eq_left left right, same, filter_append_eq_left left' right']
  subst first
  exact ⟨rfl, List.append_cancel_left same⟩

/-- A part of a list is sorted as the list is. -/
lemma filter_mergeSort (trans : ∀ a b c, le a b → le b c → le a c)
    (total : ∀ a b, le a b || le b a) (p : α → Bool) (l : List α) :
    (l.mergeSort le).filter p = (l.filter p).mergeSort le := by
  induction l with
  | nil => simp
  | cons a l ih =>
    obtain ⟨l₁, l₂, whole, rest, before⟩ := List.mergeSort_cons trans total a l
    by_cases stays : p a = true
    case neg =>
      rw [whole, List.filter_cons_of_neg stays, ← ih, rest]
      simp [stays]
    case pos =>
      obtain ⟨m₁, m₂, whole', rest', before'⟩ := List.mergeSort_cons trans total a (l.filter p)
      have above : ∀ b ∈ l₂, le a b = true := by
        have sorted := List.pairwise_mergeSort trans total (a :: l)
        rw [whole] at sorted
        exact (List.pairwise_cons.mp (List.pairwise_append.mp sorted).2.1).1
      have above' : ∀ b ∈ m₂, le a b = true := by
        have sorted := List.pairwise_mergeSort trans total (a :: l.filter p)
        rw [whole'] at sorted
        exact (List.pairwise_cons.mp (List.pairwise_append.mp sorted).2.1).1
      have same : l₁.filter p ++ l₂.filter p = m₁ ++ m₂ := by
        rw [← List.filter_append, ← rest, ih, rest']
      obtain ⟨rfl, rfl⟩ := eq_of_append_eq (p := fun b => !le a b) same
        (fun b mem => before b (List.mem_filter.mp mem).1)
        (fun b mem => by simp [above b (List.mem_filter.mp mem).1])
        before' (fun b mem => by simp [above' b mem])
      rw [List.filter_cons_of_pos stays, whole', whole, List.filter_append,
        List.filter_cons_of_pos stays]

/-- A part of a list is worked off as the list is. -/
lemma mapM_filter {ε : Type} {f : α → Except ε β} {p : α → Bool} {q : β → Bool} {l : List α}
    {ys : List β} (done : l.mapM f = .ok ys) (same : ∀ x ∈ l, ∀ y, f x = .ok y → q y = p x) :
    (l.filter p).mapM f = .ok (ys.filter q) := by
  induction l generalizing ys with
  | nil =>
    obtain rfl := Except.ok.inj done
    rfl
  | cons x l ih =>
    obtain ⟨y, rest, first, others, rfl⟩ := mapM_cons_eq_ok.mp done
    have tail := ih others fun x mem => same x (List.mem_cons_of_mem _ mem)
    have head := same x (List.mem_cons_self ..) y first
    by_cases stays : p x = true
    · rw [List.filter_cons_of_pos stays, List.filter_cons_of_pos (head.trans stays)]
      exact mapM_cons_eq_ok.mpr ⟨y, _, first, tail, rfl⟩
    · rw [List.filter_cons_of_neg stays, List.filter_cons_of_neg (head ▸ stays)]
      exact tail

end Lists

/-! ## Without the orphans -/

namespace Contents

variable {c : Contents} {paths : List String}

/-- What is left when the records of some paths are deleted. -/
lemma toList_deleteAll : (c.applyAll (paths.map (Write.delete <| Record.key ·))).toList =
    c.toList.filter fun b => decide (b.1 ∉ paths.map Record.key) := by
  induction paths generalizing c with
  | nil => simp [applyAll]
  | cons path rest ih =>
    have step : c.applyAll ((path :: rest).map (Write.delete <| Record.key ·)) =
        applyAll (c.erase (Record.key path)) (rest.map (Write.delete <| Record.key ·)) := rfl
    have first : (c.erase (Record.key path)).toList =
        c.toList.filter fun b => decide (b.1 ≠ Record.key path) := rfl
    rw [step, ih, first, List.filter_filter]
    refine List.filter_congr fun b _ => ?_
    simp only [List.map_cons, List.mem_cons, not_or]
    rw [Bool.decide_and, Bool.and_comm]

/-- A scan after a deletion leaves out what was deleted. -/
lemma scan_deleteAll (stem : Bytes) :
    (c.applyAll (paths.map (Write.delete <| Record.key ·))).scan stem =
      (c.scan stem).filter fun b => decide (b.1 ∉ paths.map Record.key) := by
  rw [scan_eq, scan_eq, toList_deleteAll, List.filter_filter, List.filter_filter]
  exact List.filter_congr fun b _ => Bool.and_comm ..

end Contents

namespace Tree

variable {t t' : Tree} {c : Contents} {list : List Stored} {orphans : List String}

/-- Without the orphans, the records make the same tree and no new orphans. -/
lemma graftAll_kept (apart : (list.map Prod.fst).Nodup)
    (done : t.graftAll list = .ok (orphans, t')) :
    t.graftAll (list.filter fun stored => decide (stored.1 ∉ orphans)) = .ok ([], t') ∧
      orphans ⊆ list.map Prod.fst := by
  induction list generalizing t orphans with
  | nil =>
    obtain ⟨rfl, rfl⟩ := Prod.mk.inj (Except.ok.inj done)
    exact ⟨rfl, List.Subset.refl _⟩
  | cons stored rest ih =>
    obtain ⟨path, r⟩ := stored
    obtain ⟨orphan, t₁, orphans₁, first, later, rfl⟩ := graftAll_cons_eq_ok.mp done
    obtain ⟨fresh, apart⟩ := List.nodup_cons.mp apart
    obtain ⟨others, part⟩ := ih apart later
    cases orphan with
    | true =>
      obtain ⟨-, -, rfl⟩ := orphan_of_graft first
      refine ⟨?_, List.cons_subset_cons path part⟩
      have same : (rest.filter fun stored => decide (stored.1 ∉ path :: orphans₁)) =
          rest.filter fun stored => decide (stored.1 ∉ orphans₁) := by
        refine List.filter_congr fun stored mem => ?_
        have other : stored.1 ≠ path := by
          rintro rfl
          exact fresh (List.mem_map.mpr ⟨stored, mem, rfl⟩)
        simp [other]
      simp only [if_true]
      rw [List.filter_cons_of_neg (by simp), same]
      exact others
    | false =>
      refine ⟨?_, fun path' mem => List.mem_cons_of_mem _ (part mem)⟩
      have stays : path ∉ orphans₁ := fun mem => fresh (part mem)
      simp only [Bool.false_eq_true, if_false]
      rw [List.filter_cons_of_pos (by simpa using stays)]
      exact graftAll_cons_eq_ok.mpr ⟨false, t₁, [], first, others, rfl⟩

/-- What is left of a store makes the same tree again. -/
lemma ofStored_deleteAll (built : ofStored (c.scan Record.keyStem) = .ok (orphans, t)) :
    ofStored ((c.applyAll (orphans.map (Write.delete <| Record.key ·))).scan Record.keyStem) =
      .ok ([], t) := by
  obtain ⟨list, read, grafted⟩ := bind_eq_ok.mp built
  have reads := reads_of_mapM read
  rw [Contents.scan_deleteAll]
  have read' : ((c.scan Record.keyStem).filter fun b => decide (b.1 ∉ orphans.map Record.key)).mapM
      readStored = .ok (list.filter fun stored => decide (stored.1 ∉ orphans)) := by
    refine mapM_filter read fun b mem stored first => ?_
    obtain ⟨key, -⟩ := (readStored_eq_ok (Contents.mem_scan.mp mem).2).mp first
    rw [key]
    exact decide_eq_decide.mpr (not_congr (List.mem_map_of_injective Record.key_injective).symm)
  have sorted : byDepth (list.filter fun stored => decide (stored.1 ∉ orphans)) =
      (byDepth list).filter fun stored => decide (stored.1 ∉ orphans) :=
    (filter_mergeSort (fun a b c => by simpa using Nat.le_trans)
      (fun a b => by simpa using Nat.le_total _ _) _ list).symm
  refine bind_eq_ok.mpr ⟨_, read', ?_⟩
  rw [sorted]
  exact (graftAll_kept reads.byDepth.apart grafted).1

end Tree

/-! ## Call by call -/

/-- A call to a store, as far as recovery makes it. -/
inductive Access where
  | scan (stem : Bytes)
  | batch (writes : List Write)
  deriving DecidableEq

/-- The kind of call an access is. -/
def Access.kind : Access → StoreCall
  | .scan _ => .scan
  | .batch _ => .batch

/-- A store and the calls it has been asked so far. -/
structure Watched where
  store : Store
  calls : List Access

/-- Work on a store. If it is interrupted, the store stays as the calls before have left it. -/
abbrev Work := ExceptT Interruption (StateM Watched)

namespace Work

/-- Scans the store, and notes it. -/
def scan (stem : Bytes) : Work (List (Bytes × Bytes)) :=
  ExceptT.mk fun w => (w.store.scan stem, { w with calls := w.calls ++ [.scan stem] })

/-- Writes a batch to the store, and notes it. -/
def batch (writes : List Write) : Work Unit :=
  ExceptT.mk fun w =>
    let calls := w.calls ++ [.batch writes]
    match w.store.batch writes with
    | .ok store => (.ok (), ⟨store, calls⟩)
    | .error e => (.error e, ⟨w.store, calls⟩)

/-- Work starts at the store that the work before it has left, unless that is interrupted. -/
lemma run_bind {α β : Type} (x : Work α) (f : α → Work β) (w : Watched) :
    (x >>= f).run.run w = match x.run.run w with
      | (.ok a, w') => (f a).run.run w'
      | (.error e, w') => (.error e, w') := by
  rw [ExceptT.run_bind, StateT.run_bind]
  obtain ⟨_ | _, w'⟩ : Except Interruption α × Watched := x.run.run w <;> rfl

variable {w : Watched} {stem : Bytes} {writes : List Write} {f : Fault}

/-- A scan that is answered. -/
lemma run_scan (answered : w.store.fault .scan = none) : (scan stem).run.run w =
    (.ok (w.store.contents.scan stem), ⟨w.store, w.calls ++ [.scan stem]⟩) := by
  have answer : w.store.scan stem = .ok (w.store.contents.scan stem) :=
    Store.call_eq_ok.mpr ⟨answered, rfl⟩
  exact congrArg (·, _) answer

/-- A scan that fails. -/
lemma run_scan_of_fault (set : w.store.fault .scan = some f) : (scan stem).run.run w =
    (.error f.interruption, ⟨w.store, w.calls ++ [.scan stem]⟩) := by
  have answer : w.store.scan stem = .error f.interruption := Store.call_of_fault set
  exact congrArg (·, _) answer

/-- A batch that is written. -/
lemma run_batch (answered : w.store.fault .batch = none) : (batch writes).run.run w =
    (.ok (), ⟨{ w.store with contents := w.store.contents.applyAll writes },
      w.calls ++ [.batch writes]⟩) := by
  have answer : w.store.batch writes =
      .ok { w.store with contents := w.store.contents.applyAll writes } :=
    Store.call_eq_ok.mpr ⟨answered, rfl⟩
  change (match w.store.batch writes with
    | .ok store => _
    | .error e => _) = _
  rw [answer]

/-- A batch that fails. -/
lemma run_batch_of_fault (set : w.store.fault .batch = some f) : (batch writes).run.run w =
    (.error f.interruption, ⟨w.store, w.calls ++ [.batch writes]⟩) := by
  have answer : w.store.batch writes = .error f.interruption := Store.call_of_fault set
  change (match w.store.batch writes with
    | .ok store => _
    | .error e => _) = _
  rw [answer]

end Work

namespace Tree

variable {s : Store}

/-- The deletion of what is no part of the tree. -/
def discard (orphans : List String) : List Write := orphans.map (Write.delete <| Record.key ·)

/-- Recovery, call by call. -/
def load : Work Tree := do
  match ofStored (← Work.scan Record.keyStem) with
  | .error why => throw (.refused why)
  | .ok ([], t) => return t
  | .ok (orphans, t) =>
    Work.batch (discard orphans)
    return t

/-- What a recovery from a store answers, and how it leaves the store. -/
def loaded (s : Store) : Except Interruption Tree × Watched := load.run.run ⟨s, []⟩

/-- How a recovery goes. A fault answers a call, or the records make no tree, or the tree is made
and its orphans are deleted, if there are any. -/
inductive Course (s : Store) : Except Interruption Tree × Watched → Prop
  | unscanned {f : Fault} (set : s.fault .scan = some f) :
    Course s (.error f.interruption, ⟨s, [.scan Record.keyStem]⟩)
  | refused {why : Failure} (scanned : s.fault .scan = none)
      (failed : ofStored (s.contents.scan Record.keyStem) = .error why) :
    Course s (.error (.refused why), ⟨s, [.scan Record.keyStem]⟩)
  | whole {t : Tree} (scanned : s.fault .scan = none)
      (built : ofStored (s.contents.scan Record.keyStem) = .ok ([], t)) :
    Course s (.ok t, ⟨s, [.scan Record.keyStem]⟩)
  | uncleared {orphans : List String} {t : Tree} {f : Fault} (scanned : s.fault .scan = none)
      (built : ofStored (s.contents.scan Record.keyStem) = .ok (orphans, t))
      (strays : orphans ≠ []) (set : s.fault .batch = some f) :
    Course s (.error f.interruption, ⟨s, [.scan Record.keyStem, .batch (discard orphans)]⟩)
  | cleared {orphans : List String} {t : Tree} (scanned : s.fault .scan = none)
      (built : ofStored (s.contents.scan Record.keyStem) = .ok (orphans, t))
      (strays : orphans ≠ []) (deleted : s.fault .batch = none) :
    Course s (.ok t, ⟨{ s with contents := s.contents.applyAll (discard orphans) },
      [.scan Record.keyStem, .batch (discard orphans)]⟩)

/-- A recovery takes one of the courses described. -/
lemma course (s : Store) : Course s (loaded s) := by
  rw [loaded, load, Work.run_bind]
  cases scanned : s.fault .scan with
  | some f =>
    rw [Work.run_scan_of_fault scanned]
    exact .unscanned scanned
  | none =>
    rw [Work.run_scan scanned]
    dsimp only
    cases built : ofStored (s.contents.scan Record.keyStem) with
    | error why => exact .refused scanned built
    | ok made =>
      obtain ⟨_ | ⟨orphan, orphans⟩, t⟩ := made
      · exact .whole scanned built
      · dsimp only
        rw [Work.run_bind]
        cases deleted : s.fault .batch with
        | some f =>
          rw [Work.run_batch_of_fault deleted]
          exact .uncleared scanned built (List.cons_ne_nil _ _) deleted
        | none =>
          rw [Work.run_batch deleted]
          exact .cleared scanned built (List.cons_ne_nil _ _) deleted

/-- A recovery that finds no orphans writes nothing. -/
lemma loaded_of_whole {t : Tree} (scanned : s.fault .scan = none)
    (built : ofStored (s.contents.scan Record.keyStem) = .ok ([], t)) :
    loaded s = (.ok t, ⟨s, [.scan Record.keyStem]⟩) := by
  rw [loaded, load, Work.run_bind, Work.run_scan scanned]
  dsimp only
  rw [built]
  rfl

/-- Recovery call by call is recovery. -/
lemma recover_eq (s : Store) : recover s = (loaded s).1.map (·, (loaded s).2.store) := by
  have scan : s.fault .scan = none →
      s.scan Record.keyStem = .ok (s.contents.scan Record.keyStem) :=
    fun answered => Store.call_eq_ok.mpr ⟨answered, rfl⟩
  have went := course s
  generalize loaded s = run at went ⊢
  rw [recover]
  cases went with
  | unscanned set =>
    rw [Store.scan, Store.call_of_fault set]
    rfl
  | refused scanned failed =>
    rw [scan scanned]
    simp only [bind, Except.bind, failed]
    rfl
  | whole scanned built =>
    rw [scan scanned]
    simp only [bind, Except.bind, built]
    rfl
  | @uncleared orphans t f scanned built strays set =>
    obtain ⟨orphan, rest, rfl⟩ := List.exists_cons_of_ne_nil strays
    rw [scan scanned]
    simp only [bind, Except.bind, built]
    rw [Store.batch, Store.call_of_fault set]
    rfl
  | @cleared orphans t scanned built strays deleted =>
    obtain ⟨orphan, rest, rfl⟩ := List.exists_cons_of_ne_nil strays
    rw [scan scanned]
    simp only [bind, Except.bind, built]
    have answer : s.batch ((orphan :: rest).map (Write.delete <| Record.key ·)) =
        .ok { s with contents := s.contents.applyAll (discard (orphan :: rest)) } :=
      Store.call_eq_ok.mpr ⟨deleted, rfl⟩
    rw [answer]
    rfl

/-- What a recovery makes of a store. -/
structure Recovery (s : Store) (t : Tree) (after : Watched) : Prop where
  /-- The nodes are the kept paths with what is stored for them, and nobody uses them. -/
  nodes : ∀ path r, (∃ i n, t.get? i = some n ∧ n.path = path ∧ n.record = r) ↔
    s.contents.Keeps path ∧ s.contents.Restores path r
  bare : t.Bare
  /-- The orphans, and only they, are deleted in one call. -/
  calls : ∃ orphans : List String, orphans.Nodup ∧
    (∀ path, path ∈ orphans ↔ s.contents.Stores path ∧ ¬ s.contents.Keeps path) ∧
    after.calls = .scan Record.keyStem :: if orphans = [] then [] else [.batch (discard orphans)]
  left : ∀ k v, after.store.contents.get? k = some v ↔ s.contents.get? k = some v ∧
    ∀ path, k = Record.key path → s.contents.Keeps path
  answers : after.store.fault = s.fault
  /-- Another recovery makes the same tree and writes nothing. -/
  again : loaded after.store = (.ok t, ⟨after.store, [.scan Record.keyStem]⟩)

/-- What is in the store after the orphans have been deleted. -/
lemma recovery_of_ofStored {t : Tree} {orphans : List String} {after : Watched}
    (scanned : s.fault .scan = none)
    (built : ofStored (s.contents.scan Record.keyStem) = .ok (orphans, t))
    (store : after.store = { s with contents := s.contents.applyAll (discard orphans) })
    (calls : after.calls =
      .scan Record.keyStem :: if orphans = [] then [] else [.batch (discard orphans)]) :
    Recovery s t after := by
  obtain ⟨bare, records, once, lost⟩ := ofStored_eq_ok built
  have rebuilt : ofStored (after.store.contents.scan Record.keyStem) = .ok ([], t) := by
    rw [store]
    exact ofStored_deleteAll built
  have rescanned : after.store.fault .scan = none := by
    rw [store]
    exact scanned
  constructor
  case nodes =>
    intro path r
    rw [← bare.recordAt?_eq_some, records]
  case bare => exact bare
  case calls => exact ⟨orphans, once, lost, calls⟩
  case left =>
    intro k v
    rw [store, discard, Contents.get?_deleteAll]
    split
    case isTrue mem =>
      obtain ⟨path, orphan, rfl⟩ := List.mem_map.mp mem
      exact iff_of_false nofun fun ⟨_, keeps⟩ => ((lost path).mp orphan).2 (keeps path rfl)
    case isFalse out =>
      refine (and_iff_left_of_imp fun found path eq => ?_).symm
      subst eq
      by_contra dropped
      exact out (List.mem_map_of_mem ((lost path).mpr ⟨⟨v, found⟩, dropped⟩))
  case answers => rw [store]
  case again => exact loaded_of_whole rescanned rebuilt

/-- Recovery from any store. If every call is answered, what can be loaded is loaded: the tree is
made of the kept paths, the orphans are gone for good, and nothing else changes. What cannot be
loaded is an error, and after an error the store is as it was. -/
theorem recovers_what_is_kept (s : Store) :
    recover s = (loaded s).1.map (·, (loaded s).2.store) ∧
    (s.contents.Loadable → (∀ call ∈ (loaded s).2.calls, s.fault call.kind = none) →
      ∃ t, (loaded s).1 = .ok t ∧ Recovery s t (loaded s).2) ∧
    (¬ s.contents.Loadable → ∃ e, (loaded s).1 = .error e) ∧
    ∀ e, (loaded s).1 = .error e → (loaded s).2.store = s := by
  have went := course s
  refine ⟨recover_eq s, ?_⟩
  generalize loaded s = run at went ⊢
  have loadable : ∀ {orphans t}, ofStored (s.contents.scan Record.keyStem) = .ok (orphans, t) →
      s.contents.Loadable := fun built => exists_ofStored_iff.mp ⟨_, _, built⟩
  cases went with
  | @unscanned f set =>
    refine ⟨fun _ answered => ?_, fun _ => ⟨_, rfl⟩, fun _ _ => rfl⟩
    exact nomatch set.symm.trans (answered (.scan Record.keyStem) (List.mem_singleton_self _))
  | refused scanned failed =>
    refine ⟨fun loads _ => ?_, fun _ => ⟨_, rfl⟩, fun _ _ => rfl⟩
    obtain ⟨orphans, t, built⟩ := exists_ofStored_iff.mpr loads
    exact nomatch failed.symm.trans built
  | whole scanned built =>
    refine ⟨fun _ _ => ⟨_, rfl, ?_⟩, fun fails => absurd (loadable built) fails, nofun⟩
    exact recovery_of_ofStored scanned built rfl rfl
  | @uncleared orphans t f scanned built strays set =>
    refine ⟨fun _ answered => ?_, fun _ => ⟨_, rfl⟩, fun _ _ => rfl⟩
    have last : Access.batch (discard orphans) ∈
        [.scan Record.keyStem, .batch (discard orphans)] :=
      List.mem_cons_of_mem _ (List.mem_singleton_self _)
    exact nomatch set.symm.trans (answered _ last)
  | cleared scanned built strays deleted =>
    refine ⟨fun _ _ => ⟨_, rfl, ?_⟩, fun fails => absurd (loadable built) fails, nofun⟩
    exact recovery_of_ofStored scanned built rfl (by rw [if_neg strays])

/-- The records of a tree, two orphans one below the other, and an entry that is no record. -/
def scattered : Store :=
  let file : Record := ⟨false, FinMap.empty.insert "k" [1]⟩
  let directory : Record := ⟨true, .empty⟩
  .ofContents (Contents.applyAll .empty [
    .put (Record.key "/") file.encode, .put (Record.key "/a/b/c") file.encode,
    .put (Record.key "/a/b") directory.encode, .put (Record.key "/a") directory.encode,
    .put (Record.key "/x/y/z") file.encode, .put (Record.key "/x/y") directory.encode,
    .put (Text.Utf8.encode "epoch") [7]])

/-- Such a store is loadable, and its recovery is as described. -/
theorem recovers_what_is_kept_scattered : scattered.contents.Loadable ∧
    ∃ t, (loaded scattered).1 = .ok t ∧ Recovery scattered t (loaded scattered).2 := by
  let file : Record := ⟨false, FinMap.empty.insert "k" [1]⟩
  let directory : Record := ⟨true, .empty⟩
  let list : List Stored := [("/", file), ("/a", directory), ("/a/b", directory),
    ("/a/b/c", file), ("/x/y", directory), ("/x/y/z", file)]
  have read : (scattered.contents.scan Record.keyStem).mapM readStored = .ok list := by
    decide +kernel
  have reads := reads_of_mapM read
  have admitted : ∀ a ∈ list, Path.isValid a.1 = true ∧
      ∀ b ∈ list, b.1 = Path.parent a.1 → b.1 ≠ Path.root → b.2.isDir = true := by
    decide +kernel
  have loads : scattered.contents.Loadable := by
    refine ⟨exists_mapM_readStored.mp ⟨list, read⟩, fun path stored => ?_⟩
    obtain ⟨r, mem⟩ := reads.stores_iff.mp stored
    obtain ⟨valid, directories⟩ := admitted _ mem
    exact ⟨valid, fun _ below r' held => directories _ ((reads.mem _ r').mpr held) rfl below⟩
  exact ⟨loads, (recovers_what_is_kept scattered).2.1 loads fun _ _ => rfl⟩

end Tree

end Coordination
