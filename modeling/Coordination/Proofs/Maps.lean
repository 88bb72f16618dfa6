import Mathlib
import Coordination.FinMap

/-!
# Laws of finite maps

Look-ups after each operation, membership in sets, and the keys as an ascending list. The look-up
laws are tagged for `grind`, which follows a table through a chain of updates.
-/

namespace Coordination

/-- What may have been changed was there before. -/
lemma ite_map_eq_some {α : Type} {p : Prop} [Decidable p] {f : α → α} {o : Option α} {b : α} :
    (if p then o.map f else o) = some b ↔ ∃ a, o = some a ∧ b = if p then f a else a := by
  split
  case isTrue =>
    rw [Option.map_eq_some_iff]
    exact exists_congr fun a => and_congr_right' eq_comm
  case isFalse => simp

/-! ## Ascending lists -/

section Ascending

variable {κ υ : Type} [LT κ] [StrictOrder κ]

/-- An ascending list is determined by its members. -/
lemma eq_of_ascending {keys keys' : List κ} (ascending : keys.Pairwise (· < ·))
    (ascending' : keys'.Pairwise (· < ·)) (same : ∀ k, k ∈ keys ↔ k ∈ keys') : keys = keys' := by
  have irrefl : Std.Irrefl (fun a b : κ => a < b) := ⟨StrictOrder.irrefl⟩
  have antisymm : Std.Antisymm (fun a b : κ => a < b) :=
    ⟨fun _ _ lt gt => absurd gt (StrictOrder.asymm lt)⟩
  exact ascending.eq_of_mem_iff ascending' same

/-- What ascending keys contribute depends only on the keys that contribute anything. -/
lemma flatMap_eq_of_ascending {keys keys' : List κ} {f : κ → List υ}
    (ascending : keys.Pairwise (· < ·)) (ascending' : keys'.Pairwise (· < ·))
    (same : ∀ k, f k ≠ [] → (k ∈ keys ↔ k ∈ keys')) : keys.flatMap f = keys'.flatMap f := by
  have trim : ∀ l : List κ, l.flatMap f = (l.filter fun k => !(f k).isEmpty).flatMap f := by
    intro l
    induction l with
    | nil => rfl
    | cons k rest ih =>
      rw [List.flatMap_cons, ih]
      cases nil : f k <;> simp [nil]
  rw [trim keys, trim keys']
  refine congrArg _ (eq_of_ascending (ascending.filter _) (ascending'.filter _) fun k => ?_)
  rw [List.mem_filter, List.mem_filter]
  refine and_congr_left fun speaks => same k ?_
  simpa using speaks

end Ascending

/-! ## Laws of the operations -/

namespace FinMap

variable {κ υ : Type}

attribute [grind =] get?_empty get?_insert get?_erase get?_modify

section Lookup

variable [DecidableEq κ] {k : κ}

/-- A look-up in a list whose values were all changed. -/
lemma find_map (f : κ → υ → υ) (l : List (κ × υ)) :
    find k (l.map fun b => (b.1, f b.1 b.2)) = (find k l).map (f k) := by
  induction l with
  | nil => rfl
  | cons b rest ih =>
    obtain ⟨k', v'⟩ := b
    by_cases eq : k = k'
    · subst eq
      simp [find]
    · simp [find, eq, ih]

variable [LT κ] {m : FinMap κ υ}

/-- A dropped key is not found. -/
lemma get?_erase_self : (m.erase k).get? k = none := by
  rw [get?_erase, if_pos rfl]

/-- A look-up after all values were changed. -/
@[grind =] lemma get?_mapValues (f : κ → υ → υ) : (m.mapValues f).get? k = (m.get? k).map (f k) :=
  find_map f m.toList

/-- The members are the keys under which something is found. -/
@[grind =] lemma mem_iff : k ∈ m ↔ ∃ v, m.get? k = some v := by
  rw [mem_def, Option.isSome_iff_exists]

/-- The empty map has no members. -/
@[simp] lemma not_mem_empty : k ∉ (empty : FinMap κ υ) := by
  simp [mem_def]

variable [StrictOrder κ]

/-- Nothing is dropped where nothing is bound. -/
lemma erase_eq_self (absent : m.get? k = none) : m.erase k = m := by
  apply ext
  intro k'
  rw [get?_erase]
  split
  case isTrue eq => rw [eq, absent]
  case isFalse => rfl

/-- Two keys are dropped in either order. -/
lemma erase_comm {k' : κ} : (m.erase k).erase k' = (m.erase k').erase k := by
  apply ext
  grind

/-- A map is empty if it has no members. -/
lemma isEmpty_iff : m.isEmpty = true ↔ ∀ k, k ∉ m := by
  constructor
  · intro nil k mem
    obtain ⟨v, found⟩ := mem_iff.mp mem
    rw [get?_eq_some, List.isEmpty_iff.mp nil] at found
    cases found
  · intro none
    refine List.isEmpty_iff.mpr (List.eq_nil_iff_forall_not_mem.mpr ?_)
    rintro ⟨k, v⟩ mem
    exact none k (mem_iff.mpr ⟨v, get?_eq_some.mpr mem⟩)

/-- Nothing is found under a key below all others. -/
lemma find_eq_none {l : List (κ × υ)} (fresh : ∀ b ∈ l, k < b.1) : find k l = none := by
  induction l with
  | nil => rfl
  | cons b rest ih =>
    have other : k ≠ b.1 := by
      intro eq
      have less := fresh b (List.mem_cons_self ..)
      rw [← eq] at less
      exact StrictOrder.irrefl k less
    rw [find, if_neg other]
    exact ih fun b mem => fresh b (List.mem_cons_of_mem _ mem)

end Lookup

section Keys

variable [LT κ] {m : FinMap κ υ}

/-- The keys of a map ascend. -/
lemma keys_ascending : m.keys.Pairwise (· < ·) := List.pairwise_map.mpr m.ascending

/-- No key is listed twice. -/
lemma keys_nodup [StrictOrder κ] : m.keys.Nodup :=
  keys_ascending.imp fun {a b} lt => by
    rintro rfl
    exact StrictOrder.irrefl a lt

end Keys

variable [LT κ] [DecidableEq κ] [DecidableLT κ] [StrictOrder κ]
variable {m : FinMap κ υ} {k k' : κ} {v v' : υ}

/-- Binding a key to the value it has changes nothing. -/
lemma insert_eq_self (found : m.get? k = some v) : m.insert k v = m := by
  apply ext
  intro k'
  rw [get?_insert]
  split
  case isTrue eq => rw [eq, found]
  case isFalse => rfl

/-- Changing a value is binding its key anew. -/
lemma modify_of_get? {f : υ → υ} (found : m.get? k = some v) : m.modify k f = m.insert k (f v) := by
  rw [modify, found]

/-- A changed map has the entries it had, changed at one key. -/
lemma get?_modify_eq_some {f : υ → υ} {k' : κ} {v' : υ} : (m.modify k f).get? k' = some v' ↔
    ∃ v, m.get? k' = some v ∧ v' = if k' = k then f v else v := by
  rw [get?_modify, ite_map_eq_some]

/-- What is found after a change where something was found before. -/
lemma get?_modify_of_get? {f : υ → υ} {k' : κ} {v' : υ} (found : m.get? k' = some v') :
    (m.modify k f).get? k' = some (if k' = k then f v' else v') :=
  get?_modify_eq_some.mpr ⟨v', found, rfl⟩

/-- Nothing is changed where nothing is bound. -/
lemma modify_of_none {f : υ → υ} (absent : m.get? k = none) : m.modify k f = m := by
  rw [modify, absent]

/-- A change that leaves the value alone changes nothing. -/
lemma modify_eq_self {f : υ → υ} (fixed : ∀ v, m.get? k = some v → f v = v) : m.modify k f = m := by
  cases found : m.get? k with
  | none => exact modify_of_none found
  | some v => rw [modify_of_get? found, fixed v found, insert_eq_self found]

/-- Two keys are bound in either order. -/
lemma insert_comm (apart : k ≠ k') : (m.insert k v).insert k' v' = (m.insert k' v').insert k v := by
  apply ext
  grind

/-- One key is bound and another dropped in either order. -/
lemma erase_insert_comm (apart : k ≠ k') : (m.insert k v).erase k' = (m.erase k').insert k v := by
  apply ext
  grind

/-- Changes of two values do not get in each other's way, nor do changes that commute. -/
lemma modify_comm {f g : υ → υ} (comm : k = k' → ∀ v, g (f v) = f (g v)) :
    (m.modify k f).modify k' g = (m.modify k' g).modify k f := by
  apply ext
  intro i
  simp only [get?_modify]
  by_cases here : i = k
  · subst here
    by_cases there : i = k'
    · subst there
      cases m.get? i <;> simp [comm]
    · simp [there]
  · simp [here]

/-! ## Maps from lists -/

/-- Bindings that ascend take effect on a map as they are. -/
lemma get?_foldl_insert {l : List (κ × υ)} (ascending : l.Pairwise fun a b => a.1 < b.1) :
    (l.foldl (fun m b => m.insert b.1 b.2) m).get? k = (find k l).or (m.get? k) := by
  induction l generalizing m with
  | nil => rfl
  | cons b rest ih =>
    obtain ⟨first, others⟩ := List.pairwise_cons.mp ascending
    rw [List.foldl_cons, ih others, get?_insert, find]
    by_cases eq : k = b.1
    · rw [if_pos eq, if_pos eq, find_eq_none (eq ▸ first)]
      rfl
    · rw [if_neg eq, if_neg eq]

/-- A map is made of its bindings. -/
lemma ofList_toList (m : FinMap κ υ) : ofList m.toList = m := by
  apply ext
  intro k
  rw [ofList, get?_foldl_insert m.ascending, get?_empty, Option.or_none]
  rfl

/-- The last binding of a list takes effect last. -/
lemma ofList_concat (l : List (κ × υ)) (b : κ × υ) :
    ofList (l ++ [b]) = (ofList l).insert b.1 b.2 := List.foldl_concat ..

/-- Of the values of a repeated key the last one counts. -/
lemma get?_ofList (l : List (κ × υ)) : (ofList l).get? k = l.reverse.lookup k := by
  induction l using List.reverseRecOn with
  | nil => rfl
  | append_singleton l b ih =>
    rw [ofList_concat, get?_insert, ih, List.reverse_concat, List.lookup_cons]
    by_cases eq : k = b.1
    · rw [if_pos eq, beq_iff_eq.mpr eq]
    · rw [if_neg eq, beq_eq_false_iff_ne.mpr eq]

/-- A map is made of no more bindings than there were. -/
lemma mem_of_mem_ofList {l : List (κ × υ)} {b : κ × υ} (mem : b ∈ (ofList l).toList) : b ∈ l := by
  induction l using List.reverseRecOn with
  | nil => cases mem
  | append_singleton l b' ih =>
    rw [ofList_concat] at mem
    rcases mem_bind mem with rfl | mem
    · exact List.mem_append_right _ (List.mem_singleton_self _)
    · exact List.mem_append_left _ (ih mem)

/-- A map made of a list is no longer than the list. -/
lemma size_ofList_le (l : List (κ × υ)) : (ofList l).size ≤ l.length := by
  have nodup : (ofList l).toList.Nodup := List.Nodup.of_map _ (ofList l).keys_nodup
  exact (nodup.subperm fun _ mem => mem_of_mem_ofList mem).length_le

end FinMap

namespace FinSet

variable {κ : Type} [LT κ] [DecidableEq κ] {s : FinSet κ} {k k' : κ}

/-- The members after an element was dropped. -/
lemma mem_erase : k' ∈ FinMap.erase s k ↔ k' ≠ k ∧ k' ∈ s := by
  rw [FinMap.mem_def, FinMap.mem_def, FinMap.get?_erase]
  split <;> simp_all

variable [DecidableLT κ] [StrictOrder κ]

/-- The members after the elements of a list were added. -/
lemma mem_foldl_add (l : List κ) : k ∈ l.foldl add s ↔ k ∈ l ∨ k ∈ s := by
  induction l generalizing s with
  | nil => simp
  | cons a rest ih => rw [List.foldl_cons, ih, mem_add, List.mem_cons, or_left_comm, or_assoc]

end FinSet

end Coordination
