import Mathlib
import Coordination.Failure

/-!
# Results of checks

How a chain of checks succeeds and fails, and which failures are fatal: those that say the tables
contradict each other.
-/

namespace Coordination

variable {ε α β : Type} {x : Except ε α} {f : α → Except ε β}

/-- A sequence succeeds if both parts do. -/
lemma bind_eq_ok {b : β} : x >>= f = .ok b ↔ ∃ a, x = .ok a ∧ f a = .ok b := by
  cases x with
  | error e => simp [bind, Except.bind]
  | ok a => simp [bind, Except.bind]

/-- A sequence fails if one of its parts does. -/
lemma bind_eq_error {e : ε} : x >>= f = .error e ↔ x = .error e ∨ ∃ a, x = .ok a ∧ f a = .error e := by
  cases x with
  | error e => simp [bind, Except.bind]
  | ok a => simp [bind, Except.bind]

/-- Changing the result changes no failure. -/
lemma map_eq_error {f : α → β} {e : ε} : f <$> x = .error e ↔ x = .error e := by
  cases x <;> simp [Functor.map, Except.map]

section Lists

variable {l : List α} {ys : List β} {y : β} {f : α → Except ε β}

/-- A list is handled item by item. -/
lemma mapM_cons_eq_ok {x : α} : (x :: l).mapM f = .ok ys ↔
    ∃ y rest, f x = .ok y ∧ l.mapM f = .ok rest ∧ ys = y :: rest := by
  rw [List.mapM_cons, bind_eq_ok]
  constructor
  · rintro ⟨y, first, others⟩
    obtain ⟨rest, others, eq⟩ := bind_eq_ok.mp others
    exact ⟨y, rest, first, others, (Except.ok.inj eq).symm⟩
  · rintro ⟨y, rest, first, others, rfl⟩
    exact ⟨y, first, bind_eq_ok.mpr ⟨rest, others, rfl⟩⟩

/-- A list is worked off if every element succeeds. -/
lemma exists_mapM_eq_ok (each : ∀ x ∈ l, ∃ y, f x = .ok y) : ∃ ys, l.mapM f = .ok ys := by
  induction l with
  | nil => exact ⟨[], rfl⟩
  | cons x l ih =>
    obtain ⟨y, first⟩ := each x (List.mem_cons_self ..)
    obtain ⟨rest, others⟩ := ih fun x mem => each x (List.mem_cons_of_mem _ mem)
    exact ⟨y :: rest, mapM_cons_eq_ok.mpr ⟨y, rest, first, others, rfl⟩⟩

/-- Every element of a list that is worked off succeeds. -/
lemma exists_of_mapM (done : l.mapM f = .ok ys) {x : α} (mem : x ∈ l) : ∃ y ∈ ys, f x = .ok y := by
  induction l generalizing ys with
  | nil => cases mem
  | cons x' l ih =>
    obtain ⟨y, rest, first, others, rfl⟩ := mapM_cons_eq_ok.mp done
    rcases List.mem_cons.mp mem with rfl | mem
    · exact ⟨y, List.mem_cons_self .., first⟩
    · obtain ⟨y', mem', eq⟩ := ih others mem
      exact ⟨y', List.mem_cons_of_mem _ mem', eq⟩

/-- The results are those of the items. -/
lemma mem_of_mapM (done : l.mapM f = .ok ys) : y ∈ ys ↔ ∃ x ∈ l, f x = .ok y := by
  induction l generalizing ys with
  | nil =>
    obtain rfl := Except.ok.inj done
    simp
  | cons x l ih =>
    obtain ⟨y', rest, first, others, rfl⟩ := mapM_cons_eq_ok.mp done
    simp [ih others, first, eq_comm]

/-- What can be told of every element and its result can be told of the lists. -/
lemma map_of_mapM {γ : Type} {g : β → γ} {h : α → γ} (done : l.mapM f = .ok ys)
    (same : ∀ x ∈ l, ∀ y, f x = .ok y → g y = h x) : ys.map g = l.map h := by
  induction l generalizing ys with
  | nil =>
    obtain rfl := Except.ok.inj done
    rfl
  | cons x l ih =>
    obtain ⟨y, rest, first, others, rfl⟩ := mapM_cons_eq_ok.mp done
    have tail := ih others fun x mem => same x (List.mem_cons_of_mem _ mem)
    rw [List.map_cons, List.map_cons, tail, same x (List.mem_cons_self ..) y first]

end Lists

/-- The failure says that the tables contradict each other. -/
def Failure.IsFatal (why : Failure) : Prop := ∃ detail, why = .corrupted detail

end Coordination
