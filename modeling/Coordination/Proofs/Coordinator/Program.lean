import Mathlib
import Coordination.Coordinator.State

/-!
# Running programs

How the building blocks of an operation run: `run_bind` threads the tables through a sequence and
ends it at the first interruption, and the other laws run one step each. `Meets` says of a program
what it ends with, be it a value or an interruption, and has one law for each building block too.
-/

namespace Coordination.Op

variable {α β : Type} {s : State}

/-- A sequence ends with its second part, unless the first is interrupted. -/
lemma run_bind (x : Op α) (f : α → Op β) : (x >>= f).run s =
    match x.run s with
    | (.ok a, s') => (f a).run s'
    | (.error e, s') => (.error e, s') := by
  have step : (x >>= f).run s = StateT.run (x >>= f).run s := rfl
  have start : StateT.run x.run s = pure (x.run s) := rfl
  rw [step, ExceptT.run_bind, StateT.run_bind, start, pure_bind]
  rcases x.run s with ⟨_ | _, _⟩ <;> rfl

/-- A part that succeeds hands its value and its tables on. -/
lemma run_bind_of_ok {x : Op α} {a : α} {s' : State} (first : x.run s = (.ok a, s'))
    (f : α → Op β) : (x >>= f).run s = (f a).run s' := by
  rw [run_bind, first]

/-- A result that is changed on the way. -/
lemma run_map (f : α → β) (x : Op α) : (f <$> x).run s =
    match x.run s with
    | (.ok a, s') => (.ok (f a), s')
    | (.error e, s') => (.error e, s') := by
  rw [map_eq_pure_bind, run_bind]
  rfl

/-- The tables are read. -/
lemma run_get : (get : Op State).run s = (.ok s, s) := rfl

/-- The tables are changed. -/
lemma run_modify (f : State → State) : (modify f : Op PUnit).run s = (.ok (), f s) := rfl

/-- The tables are read for what follows. -/
lemma run_get_bind (f : State → Op α) : (get >>= f).run s = (f s).run s :=
  run_bind_of_ok run_get f

/-- The tables are changed before what follows. -/
lemma run_modify_bind (g : State → State) (f : PUnit → Op α) :
    ((modify g : Op PUnit) >>= f).run s = (f ()).run (g s) :=
  run_bind_of_ok (run_modify g) f

/-- A check that succeeds does nothing else. -/
lemma run_ofExcept_ok (a : α) : (ofExcept (.ok a)).run s = (.ok a, s) := rfl

/-- A call to the store changes the store, or interrupts the program. -/
lemma run_store (call : Store → Except Interruption Store) : (store call).run s =
    match call s.store with
    | .ok store => (.ok (), { s with store })
    | .error e => (.error e, s) := by
  rw [store, run_get_bind]
  cases call s.store <;> rfl

/-- A program that is the same for every element runs through a list as a fold, as long as no
element stops it. -/
lemma run_forM {γ : Type} {f : γ → Op PUnit} {g : State → γ → State} {I : List γ → State → Prop}
    (step : ∀ a rest s, I (a :: rest) s → (f a).run s = (.ok (), g s a) ∧ I rest (g s a))
    (list : List γ) (start : I list s) : (list.forM f).run s = (.ok (), list.foldl g s) := by
  induction list generalizing s with
  | nil => rfl
  | cons a rest ih =>
    obtain ⟨runs, keeps⟩ := step a rest s start
    have sequence : (a :: rest).forM f = f a >>= fun _ => rest.forM f := rfl
    rw [sequence, run_bind_of_ok runs]
    exact ih keeps

/-! ## What a program ends with -/

/-- The program ends with a value and tables that `done` holds of, or is interrupted with tables
that `stopped` holds of. -/
def Meets (op : Op α) (s : State) (done : α → State → Prop) (stopped : Interruption → State → Prop) :
    Prop :=
  match op.run s with
  | (.ok a, s') => done a s'
  | (.error e, s') => stopped e s'

variable {op : Op α} {done done' : α → State → Prop} {stopped stopped' : Interruption → State → Prop}

/-- What a program ends with is read off its run. -/
lemma meets_of_run {a : α} {s' : State} (run : op.run s = (.ok a, s')) :
    op.Meets s done stopped ↔ done a s' := by
  rw [Meets, run]

/-- A program that must end with one answer and one state runs to them. -/
lemma run_of_meets {a : α} {s' : State}
    (meets : op.Meets s (fun b t => b = a ∧ t = s') fun _ _ => False) : op.run s = (.ok a, s') := by
  unfold Meets at meets
  split at meets
  case h_1 b t run =>
    obtain ⟨rfl, rfl⟩ := meets
    exact run
  case h_2 => exact meets.elim

/-- What a program ends with may be weakened. -/
lemma Meets.imp (meets : op.Meets s done stopped) (h : ∀ a s', done a s' → done' a s')
    (h' : ∀ e s', stopped e s' → stopped' e s') : op.Meets s done' stopped' := by
  unfold Meets at *
  split at meets
  · exact h _ _ meets
  · exact h' _ _ meets

/-- A result without anything done. -/
lemma meets_pure (a : α) : (pure a : Op α).Meets s done stopped ↔ done a s := Iff.rfl

/-- The second part of a sequence starts where the first has ended. -/
lemma meets_bind {x : Op α} {f : α → Op β} {done : β → State → Prop} :
    (x >>= f).Meets s done stopped ↔
      x.Meets s (fun a s' => (f a).Meets s' done stopped) stopped := by
  rw [Meets, run_bind, Meets]
  rcases x.run s with ⟨_ | _, _⟩ <;> rfl

/-- A result that is changed on the way. -/
lemma meets_map {x : Op α} {f : α → β} {done : β → State → Prop} :
    (f <$> x).Meets s done stopped ↔ x.Meets s (fun a s' => done (f a) s') stopped := by
  rw [Meets, run_map, Meets]
  rcases x.run s with ⟨_ | _, _⟩ <;> rfl

/-- Reading the tables returns them. -/
lemma meets_get {done : State → State → Prop} :
    (get : Op State).Meets s done stopped ↔ done s s := Iff.rfl

/-- Changing the tables returns nothing. -/
lemma meets_modify {f : State → State} {done : PUnit → State → Prop} :
    (modify f : Op PUnit).Meets s done stopped ↔ done () (f s) := Iff.rfl

/-- A check ends with its value or with its refusal. -/
lemma meets_ofExcept {x : Except Failure α} : (ofExcept x).Meets s done stopped ↔
    (∀ a, x = .ok a → done a s) ∧ ∀ why, x = .error why → stopped (.refused why) s := by
  cases x with
  | ok a => exact ⟨fun h => ⟨fun _ eq => Except.ok.inj eq ▸ h, nofun⟩, fun h => h.1 a rfl⟩
  | error why => exact ⟨fun h => ⟨nofun, fun _ eq => Except.error.inj eq ▸ h⟩, fun h => h.2 why rfl⟩

/-- A call to the store ends with another store or with a failure. -/
lemma meets_store {call : Store → Except Interruption Store} {done : Unit → State → Prop} :
    (store call).Meets s done stopped ↔
      (∀ st, call s.store = .ok st → done () { s with store := st }) ∧
        ∀ e, call s.store = .error e → stopped e s := by
  rw [Meets, run_store]
  cases call s.store with
  | ok st => exact ⟨fun h => ⟨fun _ eq => Except.ok.inj eq ▸ h, nofun⟩, fun h => h.1 st rfl⟩
  | error e => exact ⟨fun h => ⟨nofun, fun _ eq => Except.error.inj eq ▸ h⟩, fun h => h.2 e rfl⟩

/-- A call to the store that is made under a condition, and what follows in either case. -/
lemma meets_ite_store {c : Prop} [Decidable c] {call : Store → Except Interruption Store}
    {rest : Op α} : (if c then store call >>= fun _ => rest else rest).Meets s done stopped ↔
      (∀ st, (if c then call s.store else .ok s.store) = .ok st →
        rest.Meets { s with store := st } done stopped) ∧
      ∀ e, (if c then call s.store else .ok s.store) = .error e → stopped e s := by
  split
  case isTrue => rw [meets_bind, meets_store]
  case isFalse => exact ⟨fun h => ⟨fun _ eq => Except.ok.inj eq ▸ h, nofun⟩, fun h => h.1 _ rfl⟩

end Coordination.Op
