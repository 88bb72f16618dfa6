import Coordination.Proofs.Coordinator.Retirement

/-!
# What a handle hears

Who hears of all changes of names at a node can tell the names that are there now from those that
were there at first: `Journal.names_replay`. Who hears of the lock can tell whether the handle holds
it: `Journal.lock_trace`. Both read the course of the handle, of which it hears the part it is
interested in; what it does not hear makes no difference to what it wants to know.
-/

namespace Coordination

/-- The notifications that a handle is given. -/
def heard (handle : HandleId) (out : List Command) : List Notification :=
  out.filterMap fun
    | .deliver event _ => if event.handle = handle then some event.notification else none
    | .retire _ => none

variable {handle h : HandleId} {r : Handle} {news : List Notification} {out tail : List Command}

/-- A handle hears of nothing that does not concern it. -/
lemma heard_concerning : heard handle (concerning handle out) = heard handle out := by
  rw [heard, concerning, List.filterMap_filter]
  congr 1
  funext cmd
  cases cmd with
  | deliver event callback => by_cases own : event.handle = handle <;> simp [Command.handle, own]
  | retire other => simp

/-- A handle hears the news that it is interested in. -/
lemma heard_due (silent : tail = [] ∨ tail = [.retire handle]) :
    heard handle (due handle r news ++ tail) = news.filter (r.interest.covers ·.interest) := by
  have none : heard handle tail = [] := by
    rcases silent with rfl | rfl <;> rfl
  rw [heard] at none ⊢
  rw [List.filterMap_append, none, List.append_nil, due, List.filterMap_map]
  simp

/-- What makes no difference need not be heard. -/
lemma foldlM_filter_of_skip {α β : Type} {f : β → α → Option β} {p : α → Bool}
    (skip : ∀ a, p a = false → ∀ b, f b a = some b) (l : List α) (b : β) :
    (l.filter p).foldlM f b = l.foldlM f b := by
  rw [List.foldlM_filter]
  congr 1
  funext b a
  cases keep : p a with
  | true => rfl
  | false => exact (skip a keep b).symm

/-! ## Names -/

namespace Names

variable {m m' : Names} {n : Notification} {ahead behind : List Notification}

/-- News that fit the names: nothing is added that is there, nothing removed that is not. -/
def Admits (m : Names) : Notification → Prop
  | .attrDel name => name ∈ m.attrs
  | .childAdded name => name ∉ m.children
  | .childRemoved name => name ∈ m.children
  | _ => True

/-- News that do not contradict the names are admitted by them. -/
lemma admits_of_after? (next : m.after? n = some m') : m.Admits n := by
  cases n <;> simp_all [after?, Admits]

/-- Names that can be followed are never contradicted. -/
lemma admits_of_replay? (replay : m.replay? (ahead ++ n :: behind) = some m') :
    ∃ seen, m.replay? ahead = some seen ∧ seen.Admits n := by
  rw [replay?, List.foldlM_append] at replay
  obtain ⟨seen, first, replay⟩ := Option.bind_eq_some_iff.mp replay
  obtain ⟨next, step, -⟩ := Option.bind_eq_some_iff.mp replay
  exact ⟨seen, first, admits_of_after? step⟩

end Names

/-- The kinds of news that change the names at a node. -/
def Interest.changes : List Interest := [.attrSet, .attrDel, .childAdded, .childRemoved]

/-- News that a handle ignores do not change the names it follows. -/
lemma Names.after?_of_ignored {i : Interest} (all : ∀ kind ∈ Interest.changes, i.covers kind)
    (n : Notification) (ignored : i.covers n.interest = false) (m : Names) :
    m.after? n = some m := by
  have unchanged : n.interest ∉ Interest.changes := fun mem =>
    nomatch (all _ mem).symm.trans ignored
  cases n with
  | lockAcquired => rfl
  | lockReleased => rfl
  | _ => exact absurd (by simp [Interest.changes, Notification.interest]) unchanged

/-! ## The lock -/

/-- News of the lock. -/
def Notification.isLock : Notification → Bool
  | .lockAcquired => true
  | .lockReleased => true
  | _ => false

/-- Other news say nothing about the lock. -/
lemma holdsAfter?_of_not_isLock {n : Notification} (other : n.isLock = false) (holds : Bool) :
    holdsAfter? holds n = some holds := by
  cases n <;> first | rfl | cases other

/-- A lock that is held can only be given up, and one that is not held only taken. -/
lemma holdsAfter?_eq_some {n : Notification} {held holds : Bool} (lock : n.isLock)
    (step : holdsAfter? held n = some holds) :
    n = (if held then .lockReleased else .lockAcquired) ∧ holds = !held := by
  cases n with
  | lockAcquired => cases held <;> simp_all [holdsAfter?]
  | lockReleased => cases held <;> simp_all [holdsAfter?]
  | _ => cases lock

/-- A lock is taken and given up in turn. -/
lemma lock_turns {locks : List Notification} {holds : Bool} (only : ∀ n ∈ locks, n.isLock)
    (replay : locks.foldlM holdsAfter? false = some holds) :
    (∀ i n, locks[i]? = some n → n = if i % 2 = 0 then .lockAcquired else .lockReleased) ∧
      holds = decide (locks.length % 2 = 1) := by
  -- the news are looked at from the last one, which tells what is held at the end
  induction locks using List.reverseRecOn generalizing holds with
  | nil =>
    obtain rfl := Option.some.inj replay
    simp
  | append_singleton locks n ih =>
    rw [List.foldlM_append] at replay
    obtain ⟨held, first, replay⟩ := Option.bind_eq_some_iff.mp replay
    have step : holdsAfter? held n = some holds := by
      simpa using replay
    obtain ⟨turns, rfl⟩ := ih (fun n mem => only n (List.mem_append_left _ mem)) first
    obtain ⟨turn, rfl⟩ := holdsAfter?_eq_some (only n (by simp)) step
    refine ⟨fun i n' found => ?_, ?_⟩
    · rcases Nat.lt_trichotomy i locks.length with less | rfl | more
      · exact turns i n' (by rwa [List.getElem?_append_left less] at found)
      · obtain rfl : n = n' := by simpa using found
        rw [turn]
        rcases Nat.mod_two_eq_zero_or_one locks.length with even | odd <;> simp [*]
      · have beyond : (locks ++ [n])[i]? = none := List.getElem?_eq_none (by simpa using more)
        exact nomatch beyond.symm.trans found
    · rw [List.length_append, List.length_singleton, ← decide_not, decide_eq_decide]
      omega

/-- So the last news tell whether it is held. -/
lemma getLast?_lock_turns {locks : List Notification}
    (turns : ∀ i n, locks[i]? = some n → n = if i % 2 = 0 then .lockAcquired else .lockReleased) :
    locks.getLast? = if locks.length % 2 = 1 then some .lockAcquired
      else if locks = [] then none else some .lockReleased := by
  cases last : locks.getLast? with
  | none => simp [List.getLast?_eq_none_iff.mp last]
  | some n =>
    have some : locks ≠ [] := by
      rintro rfl
      cases last
    have pos := List.length_pos_iff.mpr some
    rw [List.getLast?_eq_getElem?] at last
    rw [turns _ n last, if_neg some]
    by_cases odd : locks.length % 2 = 1
    · rw [if_pos odd, if_pos (by omega)]
    · rw [if_neg odd, if_neg (by omega)]

namespace Coordinator

variable {allowed : Set Fault} {c : Coordinator} {log before since : List Exchange}
variable {o : Exchange} {first last : View}

/-! ## All calls -/

/-- A handle hears what it is interested in of its course. -/
lemma Course.heard (course : Course before o since c h r first last news) :
    heard h (commands (before ++ o :: since)) = news.filter (r.interest.covers ·.interest) := by
  rw [← heard_concerning, course.told, heard_due (by split <;> simp)]

/-- From the names that were at a node when a handle was opened, one gets to those that are there
now by the notifications of the handle, and no notification contradicts what is known by then. -/
theorem Journal.names_replay (kept : Journal allowed log c) (mem : o ∈ log) (opens : o.Opens h r)
    (still : (c.state.handles.get? h).isSome)
    (all : ∀ kind ∈ Interest.changes, r.interest.covers kind) :
    ∃ m n, o.outcome.coordinator.state.tree.get? r.node = some m ∧
      c.state.tree.get? r.node = some n ∧
      m.names.replay? (heard h (commands log)) = some n.names ∧
      ∀ ahead e behind, heard h (commands log) = ahead ++ e :: behind →
        ∃ seen, m.names.replay? ahead = some seen ∧ seen.Admits e := by
  obtain ⟨before, since, rfl⟩ := List.append_of_mem mem
  obtain ⟨first, last, news, course⟩ := kept.course opens
  obtain ⟨r', found⟩ := Option.isSome_iff_exists.mp still
  obtain ⟨m, node, rfl⟩ := Option.map_eq_some_iff.mp course.first_eq
  obtain ⟨n, node', rfl⟩ := Option.map_eq_some_iff.mp (course.now r' found).2
  have replay : m.names.replay? (heard h (commands (before ++ o :: since))) = some n.names := by
    rw [course.heard, Names.replay?, foldlM_filter_of_skip (Names.after?_of_ignored all)]
    exact (View.replay?_eq_some.mp course.seen).1
  refine ⟨m, n, node, node', replay, fun ahead e behind eq => ?_⟩
  exact Names.admits_of_replay? (eq ▸ replay)

/-- One client watches the root while the other one comes and goes. -/
def watched : List Call :=
  [.createSession, .mkdir ⟨1⟩ "/c", .openHandle ⟨1⟩ "/" .none .all (.process "a"), .createSession,
    .openHandle ⟨2⟩ "/d" (.union .create .ephemeral) .none (.process "b"), .mkdir ⟨2⟩ "/e",
    .attrSet ⟨1⟩ ⟨1⟩ "x" [1], .delete ⟨2⟩ "/c", .attrSet ⟨1⟩ ⟨1⟩ "y" [2], .attrDel ⟨1⟩ ⟨1⟩ "x",
    .destroySession ⟨2⟩]

/-- A handle on the root hears of children and attributes, and can tell the names from it. -/
theorem names_replay_watched : ∃ o ∈ (after []).exchanges watched,
    o.Opens ⟨1⟩ ⟨⟨1⟩, ⟨1⟩, .all, .process "a"⟩ ∧
    heard ⟨1⟩ (commands ((after []).exchanges watched)) = [.childAdded "d", .childAdded "e",
      .attrSet "x", .childRemoved "c", .attrSet "y", .attrDel "x", .childRemoved "d"] ∧
    ∃ m n, o.outcome.coordinator.state.tree.get? ⟨1⟩ = some m ∧
      (after watched).state.tree.get? ⟨1⟩ = some n ∧
      m.names.replay? (heard ⟨1⟩ (commands ((after []).exchanges watched))) = some n.names := by
  have kept : Journal ∅ ((after []).exchanges watched) (after watched) := journal_after _
  have asked : ((after []).exchanges watched).any fun o =>
      o.outcome.result = .ok (.handle ⟨1⟩) ∧
      o.call = .openHandle ⟨1⟩ "/" .none .all (.process "a") ∧
      o.outcome.coordinator.state.tree.find? "/" = some ⟨1⟩ := by
    decide +kernel
  obtain ⟨o, mem, opened⟩ := List.any_eq_true.mp asked
  obtain ⟨answered, call, found⟩ := of_decide_eq_true opened
  have opens : o.Opens ⟨1⟩ ⟨⟨1⟩, ⟨1⟩, .all, .process "a"⟩ := ⟨answered, "/", .none, call, found⟩
  have still : ((after watched).state.handles.get? ⟨1⟩).isSome := by decide +kernel
  have all : ∀ kind ∈ Interest.changes, Interest.all.covers kind := by decide
  obtain ⟨m, n, node, node', replay, -⟩ := kept.names_replay mem opens still all
  exact ⟨o, mem, opens, by decide +kernel, m, n, node, node', replay⟩

/-- The notifications of a handle that are about its lock. -/
def lockNews (handle : HandleId) (log : List Exchange) : List Notification :=
  (heard handle (commands log)).filter Notification.isLock

/-- The notifications of a handle about its lock say in turn that it is taken and given up. As long
as the handle is open, it holds the lock if the last of them says that it was taken; and a handle
that has ended was told that it was given up. -/
theorem Journal.lock_trace (kept : Journal allowed log c) (mem : o ∈ log) (opens : o.Opens h r)
    (taken : r.interest.covers .lockAcquired) (given : r.interest.covers .lockReleased) :
    (∀ i n, (lockNews h log)[i]? = some n →
      n = if i % 2 = 0 then .lockAcquired else .lockReleased) ∧
    ((c.state.handles.get? h).isSome →
      (c.state.locks.isHolder r.node h ↔ (lockNews h log).getLast? = some .lockAcquired)) ∧
    (c.state.handles.get? h = none →
      lockNews h log = [] ∨ (lockNews h log).getLast? = some .lockReleased) := by
  obtain ⟨before, since, rfl⟩ := List.append_of_mem mem
  obtain ⟨first, last, news, course⟩ := kept.course opens
  have all : lockNews h (before ++ o :: since) = news.filter Notification.isLock := by
    rw [lockNews, course.heard, List.filter_filter]
    refine List.filter_congr fun n _ => ?_
    cases n <;> simp_all [Notification.isLock, Notification.interest]
  have replay : (news.filter Notification.isLock).foldlM holdsAfter? false = some last.holds := by
    rw [foldlM_filter_of_skip fun _ => holdsAfter?_of_not_isLock, ← course.free]
    exact (View.replay?_eq_some.mp course.seen).2
  obtain ⟨turns, holds⟩ := lock_turns (fun n mem => (List.mem_filter.mp mem).2) replay
  rw [all]
  refine ⟨turns, fun still => ?_, fun gone => ?_⟩
  · obtain ⟨r', found⟩ := Option.isSome_iff_exists.mp still
    obtain ⟨n, -, rfl⟩ := Option.map_eq_some_iff.mp (course.now r' found).2
    have holds : c.state.locks.isHolder r.node h = _ := holds
    rw [holds, decide_eq_true_iff, getLast?_lock_turns turns]
    split
    · simp [*]
    · split <;> simp [*]
  · have even := holds.symm.trans (course.ended gone)
    rw [getLast?_lock_turns turns, if_neg (of_decide_eq_false even)]
    split <;> simp [*]

/-- A handle that goes while it holds the lock hears last of its release. -/
theorem lock_trace_departed : ∃ o ∈ (after []).exchanges departed,
    o.Opens ⟨2⟩ ⟨⟨1⟩, ⟨3⟩, .all, .process "b"⟩ ∧
    (after departed).state.handles.get? ⟨2⟩ = none ∧
    (lockNews ⟨2⟩ ((after []).exchanges departed)).getLast? = some .lockReleased := by
  have kept : Journal ∅ ((after []).exchanges departed) (after departed) := journal_after _
  have asked : ((after []).exchanges departed).any fun o =>
      o.outcome.result = .ok (.handle ⟨2⟩) ∧
      o.call = .openHandle ⟨1⟩ "/d/f" (.union .create .ephemeral) .all (.process "b") ∧
      o.outcome.coordinator.state.tree.find? "/d/f" = some ⟨3⟩ := by
    decide +kernel
  obtain ⟨o, mem, opened⟩ := List.any_eq_true.mp asked
  obtain ⟨answered, call, found⟩ := of_decide_eq_true opened
  have opens : o.Opens ⟨2⟩ ⟨⟨1⟩, ⟨3⟩, .all, .process "b"⟩ := ⟨answered, "/d/f", _, call, found⟩
  have gone : (after departed).state.handles.get? ⟨2⟩ = none := by decide +kernel
  have some : lockNews ⟨2⟩ ((after []).exchanges departed) ≠ [] := by decide +kernel
  have ended := (kept.lock_trace mem opens (by decide) (by decide)).2.2 gone
  exact ⟨o, mem, opens, gone, ended.resolve_left some⟩

end Coordinator

end Coordination
