/-!
# Finite maps in ascending key order

A finite map is a list of bindings whose keys ascend strictly, so two maps with the same bindings
are equal and `toList` is the order in which every table of the library is enumerated. The laws
`get?_insert` and `get?_erase` say what an update does to every later look-up, and `ext` says that
look-ups determine the map.
-/

namespace Coordination

/-- A strict linear order, as the keys of a finite map need it. -/
class StrictOrder (κ : Type) [LT κ] : Prop where
  irrefl : ∀ a : κ, ¬ a < a
  trans : ∀ {a b c : κ}, a < b → b < c → a < c
  connected : ∀ {a b : κ}, ¬ a < b → ¬ b < a → a = b

namespace StrictOrder

/-- An order does not hold both ways. -/
theorem asymm {κ : Type} [LT κ] [StrictOrder κ] {a b : κ} (h : a < b) : ¬ b < a :=
  fun h' => irrefl a (trans h h')

end StrictOrder

/-- Numbers are ordered as usual. -/
instance : StrictOrder Nat where
  irrefl := Nat.lt_irrefl
  trans := Nat.lt_trans
  connected h h' := Nat.le_antisymm (Nat.not_lt.mp h') (Nat.not_lt.mp h)

/-- Texts are ordered by their characters. -/
instance : StrictOrder String where
  irrefl := String.lt_irrefl
  trans := String.lt_trans
  connected h h' := String.le_antisymm (String.not_lt.mp h') (String.not_lt.mp h)

/-- Byte strings are ordered lexicographically. -/
instance : StrictOrder (List UInt8) where
  irrefl := List.lt_irrefl
  trans := List.lt_trans
  connected h h' := List.le_antisymm (List.not_lt.mp h') (List.not_lt.mp h)

/-- Bindings of a finite map with strictly ascending keys. -/
structure FinMap (κ υ : Type) [LT κ] where
  toList : List (κ × υ)
  ascending : toList.Pairwise (fun a b => a.1 < b.1)

namespace FinMap

variable {κ υ : Type}

/-! ## Bindings as lists -/

section Lookup

variable [DecidableEq κ]

/-- The value bound to a key in a list of bindings. -/
def find (k : κ) : List (κ × υ) → Option υ
  | [] => none
  | (k', v) :: rest => if k = k' then some v else find k rest

/-- Drops the binding of a key. -/
def unbind (k : κ) (bindings : List (κ × υ)) : List (κ × υ) :=
  bindings.filter (fun b => b.1 ≠ k)

/-- Nothing is found under a key that was dropped. -/
theorem find_unbind (k k' : κ) (l : List (κ × υ)) :
    find k' (unbind k l) = if k' = k then none else find k' l := by
  induction l with
  | nil => simp [unbind, find]
  | cons hd tl ih =>
    simp only [unbind] at ih ⊢
    grind [find]

variable [LT κ] [StrictOrder κ]

/-- In an ascending list each key has one value. -/
theorem find_eq_some {k : κ} {v : υ} {l : List (κ × υ)}
    (h : l.Pairwise (fun a b => a.1 < b.1)) : find k l = some v ↔ (k, v) ∈ l := by
  induction l with
  | nil => simp [find]
  | cons hd tl ih =>
    obtain ⟨k', v'⟩ := hd
    obtain ⟨hd_lt, tl_asc⟩ := List.pairwise_cons.mp h
    have fresh : (k', v) ∉ tl := fun hm => StrictOrder.irrefl k' (hd_lt _ hm)
    grind [find]

end Lookup

section Update

variable [LT κ] [DecidableEq κ] [DecidableLT κ]

/-- Binds a key at its place in an ascending list, in place of an earlier binding. -/
def bind (k : κ) (v : υ) : List (κ × υ) → List (κ × υ)
  | [] => [(k, v)]
  | (k', v') :: rest =>
    if k < k' then (k, v) :: (k', v') :: rest
    else if k = k' then (k, v) :: rest
    else (k', v') :: bind k v rest

/-- A list gains no binding but the new one. -/
theorem mem_bind {k : κ} {v : υ} {b : κ × υ} {l : List (κ × υ)} :
    b ∈ bind k v l → b = (k, v) ∨ b ∈ l := by
  induction l with
  | nil => simp [bind]
  | cons hd tl ih =>
    obtain ⟨k', v'⟩ := hd
    simp only [bind]
    split
    · simp
    · split <;> grind

/-- Under a key that was bound its new value is found. -/
theorem find_bind (k k' : κ) (v : υ) (l : List (κ × υ)) :
    find k' (bind k v l) = if k' = k then some v else find k' l := by
  induction l with
  | nil => simp [bind, find]
  | cons hd tl ih =>
    obtain ⟨k'', v''⟩ := hd
    simp only [bind]
    split
    · simp [find]
    · split <;> grind [find]

variable [StrictOrder κ]

/-- Lists stay ascending. -/
theorem ascending_bind (k : κ) (v : υ) {l : List (κ × υ)}
    (h : l.Pairwise (fun a b => a.1 < b.1)) : (bind k v l).Pairwise (fun a b => a.1 < b.1) := by
  induction l with
  | nil => simp [bind]
  | cons hd tl ih =>
    obtain ⟨k', v'⟩ := hd
    obtain ⟨hd_lt, tl_asc⟩ := List.pairwise_cons.mp h
    simp only [bind]
    split
    case isTrue lt =>
      refine List.pairwise_cons.mpr ⟨fun b hb => ?_, h⟩
      rcases List.mem_cons.mp hb with rfl | hb
      · exact lt
      · exact StrictOrder.trans lt (hd_lt b hb)
    case isFalse not_lt =>
      split
      case isTrue eq =>
        subst eq
        exact List.pairwise_cons.mpr ⟨hd_lt, tl_asc⟩
      case isFalse ne =>
        refine List.pairwise_cons.mpr ⟨fun b hb => ?_, ih tl_asc⟩
        rcases mem_bind hb with rfl | hb
        · exact Decidable.byContradiction fun h' => ne (StrictOrder.connected not_lt h')
        · exact hd_lt b hb

end Update

section Extensionality

variable [LT κ] [StrictOrder κ]

/-- Ascending lists of bindings with the same members are equal. -/
theorem eq_of_mem_iff {l l' : List (κ × υ)} (h : l.Pairwise (fun a b => a.1 < b.1))
    (h' : l'.Pairwise (fun a b => a.1 < b.1)) (same : ∀ b, b ∈ l ↔ b ∈ l') : l = l' := by
  induction l generalizing l' with
  | nil => exact (List.eq_nil_iff_forall_not_mem.mpr fun b hb => by simpa using (same b).mpr hb).symm
  | cons hd tl ih =>
    cases l' with
    | nil => simpa using (same hd).mp (by simp)
    | cons hd' tl' =>
      obtain ⟨hd_lt, tl_asc⟩ := List.pairwise_cons.mp h
      obtain ⟨hd_lt', tl_asc'⟩ := List.pairwise_cons.mp h'
      have heads : hd = hd' := by
        have := (same hd).mp (by simp)
        have := (same hd').mpr (by simp)
        have := @StrictOrder.asymm κ _ _ hd.1 hd'.1
        grind
      subst heads
      have fresh : ∀ b, b ∈ tl → b ≠ hd := fun b hb e =>
        StrictOrder.irrefl hd.1 (e ▸ hd_lt b hb)
      have fresh' : ∀ b, b ∈ tl' → b ≠ hd := fun b hb e =>
        StrictOrder.irrefl hd.1 (e ▸ hd_lt' b hb)
      have tails : ∀ b, b ∈ tl ↔ b ∈ tl' := fun b => by
        have := same b
        grind
      rw [ih tl_asc tl_asc' tails]

end Extensionality

/-! ## Maps -/

variable [LT κ]

/-- The map without bindings. -/
def empty : FinMap κ υ := ⟨[], List.Pairwise.nil⟩

/-- There is always the empty map. -/
instance : Inhabited (FinMap κ υ) := ⟨empty⟩

/-- Applies a function to every value, which may look at its key. -/
def mapValues (m : FinMap κ υ) (f : κ → υ → υ) : FinMap κ υ :=
  ⟨m.toList.map (fun b => (b.1, f b.1 b.2)),
    List.pairwise_map.mpr m.ascending⟩

/-- Keys in ascending order. -/
def keys (m : FinMap κ υ) : List κ := m.toList.map Prod.fst

/-- Number of bindings. -/
def size (m : FinMap κ υ) : Nat := m.toList.length

/-- Whether nothing is bound. -/
def isEmpty (m : FinMap κ υ) : Bool := m.toList.isEmpty

section Lookup

variable [DecidableEq κ]

/-- The value bound to a key. -/
def get? (m : FinMap κ υ) (k : κ) : Option υ := find k m.toList

/-- Maps are compared as lists. -/
instance [DecidableEq υ] : DecidableEq (FinMap κ υ) := fun m n =>
  decidable_of_iff (m.toList = n.toList) ⟨fun h => by cases m; cases n; simp_all, congrArg _⟩

/-- Whether a key is bound. -/
def contains (m : FinMap κ υ) (k : κ) : Bool := (m.get? k).isSome

/-- The members of a map are its keys. -/
instance : Membership κ (FinMap κ υ) := ⟨fun m k => m.contains k = true⟩

/-- Membership can be decided. -/
instance (m : FinMap κ υ) (k : κ) : Decidable (k ∈ m) :=
  inferInstanceAs (Decidable (m.contains k = true))

/-- Membership is a look-up that finds something. -/
theorem mem_def {m : FinMap κ υ} {k : κ} : k ∈ m ↔ (m.get? k).isSome = true := Iff.rfl

/-- Drops the binding of a key, if there is one. -/
def erase (m : FinMap κ υ) (k : κ) : FinMap κ υ :=
  ⟨unbind k m.toList, m.ascending.filter _⟩

/-- The empty map binds nothing. -/
@[simp] theorem get?_empty (k : κ) : (empty : FinMap κ υ).get? k = none := rfl

/-- A look-up after a key was dropped. -/
theorem get?_erase (m : FinMap κ υ) (k k' : κ) :
    (m.erase k).get? k' = if k' = k then none else m.get? k' :=
  find_unbind k k' m.toList

variable [StrictOrder κ]

/-- Look-ups find the bindings of the list. -/
theorem get?_eq_some {m : FinMap κ υ} {k : κ} {v : υ} :
    m.get? k = some v ↔ (k, v) ∈ m.toList :=
  find_eq_some m.ascending

/-- Look-ups determine the map. -/
theorem ext {m n : FinMap κ υ} (h : ∀ k, m.get? k = n.get? k) : m = n := by
  have lists : m.toList = n.toList := eq_of_mem_iff m.ascending n.ascending fun ⟨k, v⟩ => by
    rw [← get?_eq_some, ← get?_eq_some, h k]
  cases m
  cases n
  simp_all

/-- The keys are the members. -/
theorem mem_keys {m : FinMap κ υ} {k : κ} : k ∈ m.keys ↔ k ∈ m := by
  simp only [keys, List.mem_map, mem_def, Option.isSome_iff_exists, get?_eq_some]
  constructor
  · rintro ⟨⟨k', v⟩, h, rfl⟩
    exact ⟨v, h⟩
  · rintro ⟨v, h⟩
    exact ⟨(k, v), h, rfl⟩

end Lookup

section Update

variable [DecidableEq κ] [DecidableLT κ] [StrictOrder κ]

/-- Binds a key, in place of an earlier binding. -/
def insert (m : FinMap κ υ) (k : κ) (v : υ) : FinMap κ υ :=
  ⟨bind k v m.toList, ascending_bind k v m.ascending⟩

/-- Applies a function to the value bound to a key, if there is one. -/
def modify (m : FinMap κ υ) (k : κ) (f : υ → υ) : FinMap κ υ :=
  match m.get? k with
  | none => m
  | some v => m.insert k (f v)

/-- Binds the keys of a list in turn, so the last value of a repeated key stays. -/
def ofList (l : List (κ × υ)) : FinMap κ υ :=
  l.foldl (fun m b => m.insert b.1 b.2) empty

/-- A look-up after a key was bound. -/
theorem get?_insert (m : FinMap κ υ) (k k' : κ) (v : υ) :
    (m.insert k v).get? k' = if k' = k then some v else m.get? k' :=
  find_bind k k' v m.toList

/-- A look-up after a value was changed. -/
theorem get?_modify (m : FinMap κ υ) (k k' : κ) (f : υ → υ) :
    (m.modify k f).get? k' = if k' = k then (m.get? k').map f else m.get? k' := by
  unfold modify
  split <;> grind [get?_insert]

end Update

end FinMap

/-- Finite sets are finite maps that bind nothing. -/
abbrev FinSet (κ : Type) [LT κ] := FinMap κ Unit

namespace FinSet

variable {κ : Type} [LT κ] [DecidableEq κ] [DecidableLT κ] [StrictOrder κ]

/-- Adds an element. -/
def add (s : FinSet κ) (k : κ) : FinSet κ := s.insert k ()

/-- The members after an element was added. -/
theorem mem_add {s : FinSet κ} {k k' : κ} : k' ∈ s.add k ↔ k' = k ∨ k' ∈ s := by
  simp only [FinMap.mem_def, add, FinMap.get?_insert]
  split <;> simp_all

end FinSet

end Coordination
