import Coordination.Proofs.Failure
import Coordination.Proofs.Maps
import Coordination.Store

/-!
# Calls to the store

When a call succeeds and when a fault answers it. `Plain` says of an interruption that it does not
stem from a contradiction in the tables: it is a refusal, or a fault of the store. A scan finds the
pairs whose keys begin with its stem, as these stand side by side: so says `mem_scan`. Over the whole
history of a store these are the pairs that were put last (`Store.scan_history`).
-/

namespace Coordination

/-- A refusal that is not fatal, or what the caller of a store with a fault sees. -/
inductive Interruption.Plain (fault : StoreCall → Option Fault) : Interruption → Prop where
  | refused {why : Failure} (harmless : ¬ why.IsFatal) : Plain fault (.refused why)
  | faulty {call : StoreCall} {f : Fault} (set : fault call = some f) : Plain fault f.interruption

namespace Store

variable {α : Type} {s st : Store} {kind : StoreCall} {a b : α} {e : Interruption} {key value : Bytes}

/-- A call to the store succeeds unless it is made to fail. -/
lemma call_eq_ok : s.call kind a = .ok b ↔ s.fault kind = none ∧ a = b := by
  unfold call
  cases s.fault kind with
  | none => simp
  | some f => simp

/-- A call that is made to fail is interrupted. -/
lemma call_of_fault {f : Fault} (set : s.fault kind = some f) :
    s.call kind a = .error f.interruption := by
  rw [call, set]

/-- A call fails as the store is made to fail. -/
lemma plain_of_call (failed : s.call kind a = .error e) : e.Plain s.fault := by
  unfold call at failed
  cases set : s.fault kind with
  | none => simp [set] at failed
  | some f =>
    rw [set] at failed
    obtain rfl := Except.error.inj failed
    exact .faulty set

/-- A put that succeeds binds the key. -/
lemma put_eq_ok : s.put key value = .ok st ↔
    s.fault .put = none ∧ { s with contents := s.contents.insert key value } = st := call_eq_ok

/-- A delete that succeeds drops the key. -/
lemma delete_eq_ok : s.delete key = .ok st ↔
    s.fault .delete = none ∧ { s with contents := s.contents.erase key } = st := call_eq_ok

/-- A put fails as the store is made to fail. -/
lemma plain_of_put (failed : s.put key value = .error e) : e.Plain s.fault := plain_of_call failed

/-- A delete fails as the store is made to fail. -/
lemma plain_of_delete (failed : s.delete key = .error e) : e.Plain s.fault := plain_of_call failed

end Store

namespace Contents

variable {c : Contents} {stem a b : Bytes}

/-! ## Scans -/

/-- No extension of a stem comes before the stem. -/
lemma not_lt_of_prefix (stems : stem <+: a) : ¬ a < stem := by
  induction stem generalizing a with
  | nil => exact List.not_lt_nil a
  | cons x stem ih =>
    obtain ⟨rest, rfl⟩ := stems
    rw [List.cons_append, List.cons_lt_cons_iff]
    rintro (less | ⟨-, less⟩)
    · exact absurd less (UInt8.lt_irrefl x)
    · exact ih (List.prefix_append ..) less

/-- The keys that begin with a stem stand side by side, behind those that are below it. -/
lemma prefix_of_lt (above : ¬ a < stem) (less : a < b) (stems : stem <+: b) : stem <+: a := by
  induction stem generalizing a b with
  | nil => exact List.nil_prefix
  | cons x stem ih =>
    obtain ⟨rest, rfl⟩ := stems
    cases a with
    | nil => exact absurd (List.nil_lt_cons x stem) above
    | cons y a =>
      rw [List.cons_lt_cons_iff] at above
      rw [List.cons_append, List.cons_lt_cons_iff] at less
      rcases less with less | ⟨rfl, less⟩
      · exact absurd (.inl less) above
      · have above : ¬ a < stem := fun below => above (.inr ⟨rfl, below⟩)
        have stems := ih above less (List.prefix_append ..)
        exact List.cons_prefix_cons.mpr ⟨rfl, stems⟩

/-- A scan of ascending pairs leaves out those whose key does not begin with the stem. -/
lemma scan_eq_filter {l : List (Bytes × Bytes)} (ascending : l.Pairwise fun a b => a.1 < b.1) :
    (l.dropWhile fun b => b.1 < stem).takeWhile (fun b => stem.isPrefixOf b.1) =
      l.filter fun b => stem.isPrefixOf b.1 := by
  induction l with
  | nil => rfl
  | cons b rest ih =>
    obtain ⟨first, others⟩ := List.pairwise_cons.mp ascending
    by_cases below : b.1 < stem
    · have out : ¬ stem.isPrefixOf b.1 = true := fun stems =>
        not_lt_of_prefix (List.isPrefixOf_iff_prefix.mp stems) below
      rw [List.dropWhile_cons_of_pos (by simpa using below), List.filter_cons, if_neg out]
      exact ih others
    · rw [List.dropWhile_cons_of_neg (by simpa using below)]
      by_cases stems : stem.isPrefixOf b.1 = true
      · have rests : rest.dropWhile (fun b => b.1 < stem) = rest := by
          refine List.dropWhile_eq_self_iff.mpr fun pos => ?_
          have less := first _ (List.getElem_mem pos)
          simp only [decide_eq_true_eq]
          exact fun below' => below (StrictOrder.trans less below')
        have tail := ih others
        rw [rests] at tail
        rw [List.takeWhile_cons, List.filter_cons, if_pos stems, if_pos stems, tail]
      · rw [List.takeWhile_cons, List.filter_cons, if_neg stems, if_neg stems]
        -- the first key that does not begin with the stem is above all that do
        refine (List.filter_eq_nil_iff.mpr fun b' mem stems' => stems ?_).symm
        have stems' := List.isPrefixOf_iff_prefix.mp stems'
        exact List.isPrefixOf_iff_prefix.mpr (prefix_of_lt below (first b' mem) stems')

/-- A scan lists the bindings whose keys begin with the stem. -/
lemma scan_eq : c.scan stem = c.toList.filter fun b => stem.isPrefixOf b.1 :=
  scan_eq_filter c.ascending

/-- A binding is scanned if its key begins with the stem. -/
lemma mem_scan {b : Bytes × Bytes} :
    b ∈ c.scan stem ↔ c.get? b.1 = some b.2 ∧ stem <+: b.1 := by
  rw [scan_eq, List.mem_filter, List.isPrefixOf_iff_prefix, FinMap.get?_eq_some]

/-- A scan lists its pairs in ascending order of the keys. -/
lemma ascending_scan : ((c.scan stem).map Prod.fst).Pairwise (· < ·) := by
  rw [scan_eq]
  exact List.pairwise_map.mpr (c.ascending.filter _)

/-- No two pairs of a scan have the same key. -/
lemma nodup_scan : ((c.scan stem).map Prod.fst).Nodup :=
  ascending_scan.imp fun {a b} less => by
    rintro rfl
    exact StrictOrder.irrefl a less

end Contents

/-! ## The history of a store -/

/-- The key that a write is about. -/
def Write.key : Write → Bytes
  | .put key _ => key
  | .delete key => key

/-- The last of the writes that are about a key, if there is any. -/
def lastTo? (key : Bytes) (writes : List Write) : Option Write :=
  writes.reverse.find? (·.key = key)

/-- The last write to a key after one more write. -/
lemma lastTo?_concat (key : Bytes) (writes : List Write) (w : Write) :
    lastTo? key (writes ++ [w]) = if w.key = key then some w else lastTo? key writes := by
  rw [lastTo?, List.reverse_concat, List.find?_cons]
  by_cases eq : w.key = key <;> simp [eq, lastTo?]

/-- Under a key stands what the last write to it has put there. -/
lemma Contents.get?_applyAll {key value : Bytes} (writes : List Write) :
    (applyAll .empty writes).get? key = some value ↔
      lastTo? key writes = some (.put key value) := by
  induction writes using List.reverseRecOn with
  | nil => simp [applyAll, lastTo?]
  | append_singleton writes w ih =>
    rw [lastTo?_concat, applyAll, List.foldl_concat, ← applyAll]
    cases w with
    | put k v =>
      rw [apply, FinMap.get?_insert, Write.key]
      by_cases eq : k = key
      · simp [eq]
      · rw [if_neg (Ne.symm eq), if_neg eq, ih]
    | delete k =>
      rw [apply, FinMap.get?_erase, Write.key]
      by_cases eq : k = key
      · simp [eq]
      · rw [if_neg (Ne.symm eq), if_neg eq, ih]

namespace Store

/-- A call that changes the store. -/
inductive Update where
  | put (key value : Bytes)
  | delete (key : Bytes)
  | batch (writes : List Write)
  deriving DecidableEq

/-- What the call writes. -/
def Update.writes : Update → List Write
  | .put key value => [.put key value]
  | .delete key => [.delete key]
  | .batch writes => writes

/-- Carries out one update. -/
def update (s : Store) : Update → Except Interruption Store
  | .put key value => s.put key value
  | .delete key => s.delete key
  | .batch writes => s.batch writes

/-- Calls one after another, up to the first that a fault answers. -/
def updateAll (s : Store) (updates : List Update) : Except Interruption Store :=
  updates.foldlM update s

/-- A store that answers every call does what it is told. -/
lemma update_ofContents (c : Contents) (u : Update) :
    (ofContents c).update u = .ok (ofContents (c.applyAll u.writes)) := by
  cases u <;> rfl

/-- A store that never fails ends with its contents after all writes. -/
lemma updateAll_ofContents (c : Contents) (updates : List Update) :
    (ofContents c).updateAll updates =
      .ok (ofContents (c.applyAll (updates.flatMap Update.writes))) := by
  induction updates generalizing c with
  | nil => rfl
  | cons u rest ih =>
    have applied : c.applyAll ((u :: rest).flatMap Update.writes) =
        (c.applyAll u.writes).applyAll (rest.flatMap Update.writes) := List.foldl_append
    rw [applied, ← ih]
    rw [updateAll, List.foldlM_cons, update_ofContents]
    rfl

/-- Whatever calls have made of an empty store, it answers a scan with the plain selection of the
pairs it holds whose key begins with the stem. Each comes once, in ascending order of the keys, and
with the value that the last write to its key has put there. -/
theorem scan_history (updates : List Update) :
    ∃ s, (ofContents .empty).updateAll updates = .ok s ∧
      ∀ stem, ∃ pairs, s.scan stem = .ok pairs ∧
        pairs = s.contents.toList.filter (fun b => stem.isPrefixOf b.1) ∧
        (pairs.map Prod.fst).Pairwise (· < ·) ∧
        ∀ key value, (key, value) ∈ pairs ↔
          stem <+: key ∧ lastTo? key (updates.flatMap Update.writes) = some (.put key value) := by
  refine ⟨_, updateAll_ofContents _ _, fun stem =>
    ⟨_, rfl, Contents.scan_eq, Contents.ascending_scan, fun key value => ?_⟩⟩
  rw [Contents.mem_scan, and_comm]
  exact and_congr_right' (Contents.get?_applyAll _)

end Store

end Coordination
