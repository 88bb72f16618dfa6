import Coordination.Proofs.Delivery.Lanes

/-!
# Histories of delivery

What calls have handed to the router, and how the callbacks of a handle have ended, is read off the
history of what happened. Flushes are numbered by their place in it.
-/

namespace Coordination

namespace Delivery

/-- No event of a handle is enqueued after the handle is retired. -/
def Orderly (actions : List Action) : Prop :=
  actions.Pairwise fun a b =>
    ∀ event callback, a = .retire event.handle → b ≠ .enqueue event callback

/-- The events that are enqueued for a handle. -/
def sent (handle : HandleId) (actions : List Action) : List Notification :=
  actions.flatMap fun
    | .enqueue event _ => event.to handle
    | _ => []

/-- What is seen at the steps of a run, one after another. -/
def observed {α : Type} (see : Delivery → Action → Option α) : Delivery → List Action → List α
  | _, [] => []
  | d, a :: rest => (see d a).toList ++
    match d.step? a with
    | none => []
    | some d' => observed see d' rest

/-- The end of a callback of a handle, if that is what happens. -/
def ending? (d : Delivery) (handle : HandleId) : Action → Option (Notification × Ending)
  | .finish i ending => do
    let l ← d.lanes.get? i
    match l.state with
    | .busy n => if l.handle = handle then some (n, ending) else none
    | _ => none
  | _ => none

/-- How the callbacks of a handle end one after another: the event is delivered if the callback took
it, dropped if it failed, and lost with its lane if it died. -/
def endings (handle : HandleId) : Delivery → List Action → List (Notification × Ending)
  | _, [] => []
  | d, a :: rest => (d.ending? handle a).toList ++
    match d.step? a with
    | none => []
    | some d' => endings handle d' rest

/-- What a call hands to the router, if the next flush has a given number. -/
def item? (next : FlushId) : Action → Option RouterItem
  | .enqueue event callback => some (.deliver event callback)
  | .retire handle => some (.retire handle)
  | .flush => some (.flush next)
  | _ => none

/-- What calls hand to the router one after another. -/
def items (next : FlushId) : List Action → List RouterItem
  | [] => []
  | a :: rest => (item? next a).toList ++ items (next + [a].count .flush) rest

/-- The events of a handle among the items of the router. -/
def events (handle : HandleId) (taken : List RouterItem) : List Notification :=
  taken.flatMap fun
    | .deliver event _ => event.to handle
    | _ => []

variable {d d' : Delivery} {handle : HandleId}
variable {taken : List RouterItem} {item : RouterItem} {actions : List Action} {f g next : FlushId}

/-- The events among two parts of what was taken. -/
lemma events_append (taken taken' : List RouterItem) :
    events handle (taken ++ taken') = events handle taken ++ events handle taken' :=
  List.flatMap_append

/-- A run may be cut in two. -/
lemma run?_append (p q : List Action) : d.run? (p ++ q) = (d.run? p).bind (·.run? q) :=
  List.foldlM_append ..

/-- A run of one step. -/
lemma run?_singleton {a : Action} : d.run? [a] = d.step? a := Option.bind_fun_some _

/-- What holds of a new router and is kept by every step holds after every run. -/
lemma run_induction {P : List Action → Delivery → Prop} (start : P [] new)
    (step : ∀ before d a d', new.run? before = some d → d.step? a = some d' → P before d →
      P (before ++ [a]) d') (ran : new.run? actions = some d) : P actions d := by
  induction actions using List.reverseRecOn generalizing d with
  | nil => exact Option.some.inj ran ▸ start
  | append_singleton before a ih =>
    rw [run?_append] at ran
    obtain ⟨d₁, reached, last⟩ := Option.bind_eq_some_iff.mp ran
    exact step before d₁ a d reached (run?_singleton.symm.trans last) (ih reached)

/-- The first part of an orderly history is orderly. -/
lemma Orderly.of_append {before later : List Action} (orderly : Orderly (before ++ later)) :
    Orderly before :=
  (List.pairwise_append.mp orderly).1

/-- What is observed in two parts of a run. -/
lemma observed_append {α : Type} (see : Delivery → Action → Option α) {p : List Action}
    (ran : d.run? p = some d') (q : List Action) :
    observed see d (p ++ q) = observed see d p ++ observed see d' q := by
  induction p generalizing d with
  | nil =>
    obtain rfl : d = d' := Option.some.inj ran
    rfl
  | cons a rest ih =>
    obtain ⟨d₁, step, ran⟩ := Option.bind_eq_some_iff.mp ran
    rw [List.cons_append, observed, observed, step]
    dsimp only
    rw [ih ran, List.append_assoc]

/-- One more step is seen. -/
lemma observed_snoc {α : Type} (see : Delivery → Action → Option α) {p : List Action} {a : Action}
    {d'' : Delivery} (ran : d.run? p = some d') (step : d'.step? a = some d'') :
    observed see d (p ++ [a]) = observed see d p ++ (see d' a).toList := by
  rw [observed_append see ran, observed, step]
  exact congrArg _ (List.append_nil _)

/-- The ends of calls are observed step by step. -/
lemma endings_eq_observed : endings handle d actions = observed (·.ending? handle ·) d actions := by
  induction actions generalizing d with
  | nil => rfl
  | cons a rest ih =>
    rw [endings, observed]
    cases d.step? a with
    | none => rfl
    | some d' => exact congrArg _ ih

/-- The ends of calls in two parts of a run. -/
lemma endings_append {p : List Action} (ran : d.run? p = some d') (q : List Action) :
    endings handle d (p ++ q) = endings handle d p ++ endings handle d' q := by
  simp only [endings_eq_observed]
  exact observed_append _ ran q

/-- The items that two parts of a history hand over. -/
lemma items_append (p q : List Action) :
    items next (p ++ q) = items next p ++ items (next + p.count .flush) q := by
  induction p generalizing next with
  | nil => rfl
  | cons a rest ih =>
    have count : (a :: rest).count .flush = [a].count .flush + rest.count .flush := by
      rw [← List.singleton_append, List.count_append]
    rw [List.cons_append, items, items, ih, List.append_assoc, count, Nat.add_assoc]

/-- The events handed over for a handle are those that were enqueued. -/
lemma events_items : events handle (items next actions) = sent handle actions := by
  induction actions generalizing next with
  | nil => rfl
  | cons a rest ih =>
    rw [items, events_append, ih]
    cases a <;> simp [events, sent, item?]

/-- Whatever the router has to take was handed over by a call, after what stands before it. -/
lemma items_split {before after : List RouterItem}
    (eq : items next actions = before ++ item :: after) :
    ∃ p a q, actions = p ++ a :: q ∧ items next p = before ∧
      item? (next + p.count .flush) a = some item := by
  induction actions generalizing next before with
  | nil => simp [items] at eq
  | cons a rest ih =>
    rw [items] at eq
    have count : ∀ p : List Action, (a :: p).count .flush = [a].count .flush + p.count .flush := by
      intro p
      rw [← List.singleton_append, List.count_append]
    cases handed : item? next a with
    | none =>
      rw [handed] at eq
      obtain ⟨p, b, q, rfl, same, given⟩ := ih eq
      refine ⟨a :: p, b, q, rfl, ?_, ?_⟩
      · rw [items, handed, same]
        rfl
      · rwa [count, ← Nat.add_assoc]
    | some first =>
      rw [handed] at eq
      cases before with
      | nil =>
        obtain ⟨rfl, -⟩ := List.cons.inj eq
        exact ⟨[], a, rest, rfl, rfl, handed⟩
      | cons x before =>
        obtain ⟨rfl, tail⟩ := List.cons.inj eq
        obtain ⟨p, b, q, rfl, same, given⟩ := ih tail
        refine ⟨a :: p, b, q, rfl, ?_, ?_⟩
        · rw [items, handed, same]
          rfl
        · rwa [count, ← Nat.add_assoc]

/-- A flush is handed over by a call to flush. -/
lemma item?_eq_flush {a : Action} (given : item? next a = some (.flush g)) :
    a = .flush ∧ g = next := by
  cases a <;> simp_all [item?]

/-- Flushes are numbered in the order of their calls. -/
lemma flush_mem_items (mem : .flush g ∈ items next actions) :
    next ≤ g ∧ g < next + actions.count .flush := by
  obtain ⟨before, after, eq⟩ := List.append_of_mem mem
  obtain ⟨p, a, q, rfl, -, given⟩ := items_split eq
  obtain ⟨rfl, rfl⟩ := item?_eq_flush given
  simp

/-- No flush has the number of an earlier one. -/
lemma flush_not_mem {before after : List RouterItem}
    (eq : items next actions = before ++ .flush f :: after) : .flush f ∉ before := by
  obtain ⟨p, a, q, rfl, rfl, given⟩ := items_split eq
  obtain ⟨rfl, rfl⟩ := item?_eq_flush given
  exact fun mem => (flush_mem_items mem).2.false

/-- What the router takes before a flush was handed to it before the flush was called. -/
lemma items_before_flush {p q : List Action} {before after : List RouterItem}
    (eq : items next (p ++ .flush :: q) = before ++ .flush (next + p.count .flush) :: after) :
    before = items next p := by
  have earlier : .flush (next + p.count .flush) ∉ items next p :=
    fun mem => (flush_mem_items mem).2.false
  have later : .flush (next + p.count .flush) ∉ items (next + p.count .flush + 1) q :=
    fun mem => Nat.not_succ_le_self _ (flush_mem_items mem).1
  rw [items_append] at eq
  exact ((List.append_cons_inj_of_notMem earlier later).mp eq).1.symm

/-- A retirement is handed over by a call to retire. -/
lemma retire_mem_items (mem : .retire handle ∈ items next actions) : .retire handle ∈ actions := by
  obtain ⟨before, after, eq⟩ := List.append_of_mem mem
  obtain ⟨p, a, q, rfl, -, given⟩ := items_split eq
  cases a <;> simp_all [item?]

/-- An event that waits for the router is for a handle that was not retired before. -/
lemma Orderly.not_retired (orderly : Orderly actions) {before after : List RouterItem}
    {event : Event} {callback : Callback}
    (eq : items next actions = before ++ .deliver event callback :: after) :
    .retire event.handle ∉ before := by
  obtain ⟨p, a, q, rfl, rfl, given⟩ := items_split eq
  obtain rfl : a = .enqueue event callback := by
    cases a <;> simp_all [item?]
  intro retired
  obtain ⟨-, -, apart⟩ := List.pairwise_append.mp orderly
  exact apart _ (retire_mem_items retired) _ (List.mem_cons_self ..) event callback rfl rfl

end Delivery

end Coordination
