import Coordination.Proofs.Coordinator.Journal
import Coordination.Proofs.Delivery.Lineup

/-!
# Handles and their commands

All that is handed over about a handle comes after it is opened, and its retirement comes last.
`Journal.retired_last` says it of the record of any run, together with what the events of a handle
are: what has happened at the node it was opened on, as far as it is interested. A router that is
given such commands makes one lane for a handle and never a second.
-/

namespace Coordination

/-! ## The commands for one handle -/

variable {handle h : HandleId} {r : Handle} {news : List Notification} {out : List Command}
variable {front back : List Command} {cmd : Command}

/-- News are due if the handle is interested in them. -/
lemma mem_due : cmd ∈ due handle r news ↔
    ∃ n ∈ news, r.interest.covers n.interest ∧ .deliver ⟨handle, r.node, n⟩ r.callback = cmd := by
  simp [due, and_assoc]

/-- No retirement is due for news. -/
lemma retire_not_mem_due : .retire h ∉ due handle r news := by
  intro mem
  obtain ⟨n, -, -, eq⟩ := mem_due.mp mem
  cases eq

/-- A handle is retired after its events and once. -/
lemma before_retire {tail : List Command} (last : tail = [] ∨ tail = [.retire handle])
    (told : due handle r news ++ tail = front ++ cmd :: back) : .retire handle ∉ front := by
  intro mem
  have order : (due handle r news ++ tail).Pairwise fun a _ => a ≠ .retire handle := by
    refine List.pairwise_append.mpr ⟨?_, ?_, ?_⟩
    · exact List.pairwise_of_forall_mem_list fun a mem _ _ eq => retire_not_mem_due (eq ▸ mem)
    · rcases last with rfl | rfl <;> simp
    · exact fun a mem _ _ eq => retire_not_mem_due (eq ▸ mem)
  rw [told] at order
  exact (List.pairwise_append.mp order).2.2 _ mem cmd (List.mem_cons_self ..) rfl

/-- The retirements of a handle are among what concerns it. -/
lemma count_retire :
    out.count (.retire handle) = (concerning handle out).count (.retire handle) := by
  rw [concerning, List.count_filter]
  exact decide_eq_true rfl

/-- No event of a handle is handed over after the handle is retired. -/
def RetiredLast (out : List Command) : Prop :=
  out.Pairwise fun a b => ∀ event callback, a = .retire event.handle → b ≠ .deliver event callback

/-- Retirements come last if none comes before a delivery. -/
lemma retiredLast_of_notMem (last : ∀ front event callback back,
    out = front ++ .deliver event callback :: back → .retire event.handle ∉ front) :
    RetiredLast out := by
  induction out using List.reverseRecOn with
  | nil => exact .nil
  | append_singleton out cmd ih =>
    refine List.pairwise_append.mpr ⟨ih ?_, List.pairwise_singleton .., ?_⟩
    · intro front event callback back eq
      refine last front event callback (back ++ [cmd]) ?_
      rw [eq, List.append_assoc, List.cons_append]
    · rintro a mem b single event callback rfl rfl
      obtain rfl := List.mem_singleton.mp single
      exact last out event callback [] rfl mem

/-! ## At the router -/

/-- The command that is handed to the router. -/
def Action.command? : Action → Option Command
  | .enqueue event callback => some (.deliver event callback)
  | .retire handle => some (.retire handle)
  | _ => none

namespace Delivery

variable {d : Delivery} {actions : List Action}

/-- If retirements come last what is handed over in this order is orderly. -/
lemma orderly_of_retiredLast (last : RetiredLast out)
    (handed : actions.filterMap Action.command? <+: out) : Orderly actions := by
  have order := last.sublist handed.sublist
  rw [List.pairwise_filterMap] at order
  refine order.imp fun {a b} later event callback first => ?_
  rintro rfl
  exact later _ (by rw [first]; rfl) _ rfl event callback rfl rfl

/-- Then no handle gets a second lane. -/
lemma single_lane (last : RetiredLast out) (ran : new.run? actions = some d)
    (handed : actions.filterMap Action.command? <+: out) {i j : LaneId} {l l' : Lane}
    (lane : d.lanes.get? i = some l) (lane' : d.lanes.get? j = some l')
    (same : l.handle = l'.handle) : i = j := by
  obtain ⟨taken, line, -⟩ := lined_run l.handle ran (orderly_of_retiredLast last handed)
  exact line.seats.single i j (owner?_of_get? lane) (same ▸ owner?_of_get? lane')

end Delivery

namespace Coordinator

variable {allowed : Set Fault} {c : Coordinator} {log earlier since : List Exchange}
variable {o : Exchange} {r' : Handle}

/-! ## In a record -/

/-- A command about a handle is handed over after the handle is opened, and not after it is
retired. -/
lemma Course.placed {first last : View}
    (course : Course earlier o since c cmd.handle r first last news)
    (eq : commands (earlier ++ o :: since) = front ++ cmd :: back) :
    .retire cmd.handle ∉ front ∧ commands (earlier ++ [o]) <+: front ∧
      ∀ event callback, cmd = .deliver event callback → event.node = r.node ∧
        r.interest.covers event.notification.interest ∧ callback = r.callback := by
  have told := course.told
  have own : concerning cmd.handle (front ++ cmd :: back) =
      concerning cmd.handle front ++ cmd :: concerning cmd.handle back := by
    rw [concerning_append]
    exact congrArg _ (List.filter_cons_of_pos (decide_eq_true rfl))
  rw [eq, own] at told
  refine ⟨fun retired => ?_, ?_, ?_⟩
  · refine before_retire (by split <;> simp) told.symm ?_
    exact List.mem_filter.mpr ⟨retired, decide_eq_true rfl⟩
  · rw [List.append_cons, commands_append] at eq
    rcases List.append_eq_append_iff.mp eq with ⟨more, rfl, -⟩ | ⟨more, opening, rest⟩
    · exact List.prefix_append ..
    · cases more with
      | nil => rw [opening, List.append_nil]
      | cons first more =>
        -- the opening would have said something of the handle
        obtain ⟨rfl, -⟩ := List.cons.inj rest
        have mem : cmd ∈ concerning cmd.handle (commands (earlier ++ [o])) := by
          rw [opening]
          exact List.mem_filter.mpr ⟨by simp, decide_eq_true rfl⟩
        rw [course.silent] at mem
        cases mem
  · rintro event callback rfl
    have mem : .deliver event callback ∈ due event.handle r news := by
      have mem := told ▸ List.mem_append_right _ (List.mem_cons_self ..)
      rcases List.mem_append.mp mem with mem | mem
      · exact mem
      · split at mem <;> simp at mem
    obtain ⟨n, -, covers, eq⟩ := mem_due.mp mem
    obtain ⟨same, rfl⟩ := Command.deliver.inj eq
    rw [← same]
    exact ⟨rfl, covers, rfl⟩

/-- Whoever is told anything was opened. -/
lemma Chronicle.exists_opening (chronicle : Chronicle log c) (mem : cmd ∈ commands log) :
    ∃ earlier o since r, log = earlier ++ o :: since ∧ Followed earlier o since c cmd.handle r := by
  by_contra none
  have unopened : ∀ x ∈ log, ¬ x.Answers cmd.handle := by
    intro x listed answers
    obtain ⟨earlier, since, whole⟩ := List.append_of_mem listed
    obtain ⟨r, followed⟩ := chronicle.opened earlier x since _ whole answers
    exact none ⟨earlier, x, since, r, whole, followed⟩
  have listed : cmd ∈ concerning cmd.handle (commands log) :=
    List.mem_filter.mpr ⟨mem, decide_eq_true rfl⟩
  rw [(chronicle.unopened _ unopened).2] at listed
  cases listed

/-- What is handed over about a handle has its place in the course of the handle. -/
lemma Journal.placed (kept : Journal allowed log c)
    (eq : commands log = front ++ cmd :: back) : .retire cmd.handle ∉ front ∧
      ∃ earlier o since r, log = earlier ++ o :: since ∧ o.Opens cmd.handle r ∧
        commands (earlier ++ [o]) <+: front ∧
        ∀ event callback, cmd = .deliver event callback → event.node = r.node ∧
          r.interest.covers event.notification.interest ∧ callback = r.callback := by
  have mem : cmd ∈ commands log := by simp [eq]
  obtain ⟨earlier, o, since, r, rfl, followed⟩ := kept.chronicle.exists_opening mem
  obtain ⟨first, last, news, course⟩ := followed.course kept.reachable.sound.linked
  obtain ⟨open', later, what⟩ := course.placed eq
  exact ⟨open', earlier, o, since, r, rfl, course.opens, later, what⟩

/-- A handle that has ended was retired once. What is handed over about a handle comes after it was
opened and not after it was retired; an event goes to a handle that is interested in it, and is
something that has happened at the node the handle was opened on. No handle gets a second lane. -/
theorem Journal.retired_last (kept : Journal allowed log c) :
    (∀ o ∈ log, ∀ h, o.Answers h → (commands log).count (.retire h) =
      if (c.state.handles.get? h).isSome then 0 else 1) ∧
    (∀ front cmd back, commands log = front ++ cmd :: back → .retire cmd.handle ∉ front ∧
      ∃ earlier o since r, log = earlier ++ o :: since ∧ o.Opens cmd.handle r ∧
        commands (earlier ++ [o]) <+: front ∧
        ∀ event callback, cmd = .deliver event callback → event.node = r.node ∧
          r.interest.covers event.notification.interest ∧ callback = r.callback) ∧
    (∀ o ∈ log, ∀ h r, o.Opens h r → ∃ first last news,
      o.outcome.coordinator.state.view? h r = some first ∧ first.replay? news = some last ∧
      ((c.state.handles.get? h).isSome → c.state.view? h r = some last) ∧
      concerning h (commands log) = due h r news ++
        if (c.state.handles.get? h).isSome then [] else [.retire h]) ∧
    (∀ actions d, Delivery.new.run? actions = some d →
      actions.filterMap Action.command? <+: commands log →
      ∀ i j l l', d.lanes.get? i = some l → d.lanes.get? j = some l' → l.handle = l'.handle →
        i = j) := by
  refine ⟨?_, ?_, ?_, ?_⟩
  · intro o mem h answers
    obtain ⟨earlier, since, rfl⟩ := List.append_of_mem mem
    obtain ⟨r, followed⟩ := kept.chronicle.opened earlier o since h rfl answers
    obtain ⟨first, last, news, course⟩ := followed.course kept.reachable.sound.linked
    rw [count_retire, course.told, List.count_append, List.count_eq_zero.mpr retire_not_mem_due]
    split <;> simp
  · exact fun front cmd back eq => kept.placed eq
  · intro o mem h r opens
    obtain ⟨earlier, since, rfl⟩ := List.append_of_mem mem
    obtain ⟨first, last, news, course⟩ := kept.course opens
    refine ⟨first, last, news, course.first_eq, course.seen, fun still => ?_, course.told⟩
    obtain ⟨r', found⟩ := Option.isSome_iff_exists.mp still
    exact (course.now r' found).2
  · intro actions d ran handed i j l l' lane lane' same
    have last : RetiredLast (commands log) :=
      retiredLast_of_notMem fun front event callback back eq => (kept.placed eq).1
    exact Delivery.single_lane last ran handed lane lane' same

/-- A client leaves with a lock and with handles on an ephemeral directory and a file in it; the
other one has a handle on the directory. -/
def departed : List Call :=
  [.createSession, .createSession,
    .openHandle ⟨1⟩ "/d" (.union .create (.union .directory .ephemeral)) .all (.process "a"),
    .openHandle ⟨1⟩ "/d/f" (.union .create .ephemeral) .all (.process "b"),
    .openHandle ⟨2⟩ "/d" .none .all (.process "c"), .lock ⟨1⟩ ⟨2⟩ .exclusive, .destroySession ⟨1⟩]

/-- A handle that was opened and has ended is retired once. -/
theorem retired_last_departed : ∃ o ∈ (after []).exchanges departed, o.Answers ⟨2⟩ ∧
    (commands ((after []).exchanges departed)).count (.retire ⟨2⟩) = 1 := by
  have kept : Journal ∅ ((after []).exchanges departed) (after departed) := journal_after _
  have asked : ((after []).exchanges departed).any
      fun o => decide (o.outcome.result = .ok (.handle ⟨2⟩)) := by
    decide +kernel
  obtain ⟨o, mem, answers⟩ := List.any_eq_true.mp asked
  have answers : o.outcome.result = .ok (.handle ⟨2⟩) := of_decide_eq_true answers
  have gone : ((after departed).state.handles.get? ⟨2⟩).isSome = false := by decide +kernel
  have count := kept.retired_last.1 o mem ⟨2⟩ answers
  exact ⟨o, mem, answers, count.trans (by rw [gone]; rfl)⟩

end Coordinator

end Coordination
