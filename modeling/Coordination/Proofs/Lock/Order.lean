import Coordination.Proofs.Lock.Discipline

/-!
# The order of requests

Between operations the order of the requests says who holds a lock. So it is enough to know what
happens to that order: when requests are withdrawn and others join at the end, whoever holds the
lock and has not withdrawn goes on holding it, and nobody gets ahead of an earlier request.

Inside a call a lock need not be settled, but it is still consistent, and the `turns` of given handles
only get fewer as long as none of them asks again. That two requests are granted in turn follows from
their turns alone.
-/

namespace Coordination.LockState

variable {l l' : LockState} {mode : LockMode} {w v : Waiter} {x : Holder}

/-! ## Holders and waiters -/

/-- Whoever made a request holds the lock or waits for it. -/
lemma mem_requests (mem : w ∈ l.requests) : w.holder ∈ l.holders ∨ w ∈ l.waiters := by
  rcases List.mem_append.mp mem with held | waits
  · obtain ⟨x, holds, rfl⟩ := List.mem_map.mp held
    exact .inl holds
  · exact .inr waits

/-- The holder a waiter becomes is none yet. -/
lemma Consistent.not_holder (c : l.Consistent) (waits : w ∈ l.waiters) : w.holder ∉ l.holders := by
  intro holds
  have held : l.isHolder w.handle = true := isHolder_iff.mpr ⟨w.holder, holds, rfl⟩
  rw [c.isHolder_of_waiting waits] at held
  cases held

/-- A lock admits a newcomer if nobody holds it, or if only shared holders and no waiters are in the
way of a shared request. -/
lemma Consistent.admits_iff (c : l.Consistent) : l.admits mode = true ↔
    l.holders = [] ∨ mode = .shared ∧ l.mode = .shared ∧ l.waiters = [] := by
  have held : l.mode ≠ .none → l.holders ≠ [] := fun held nil => held (c.free_iff.mpr nil)
  unfold admits
  cases m : l.mode with
  | none => simp [c.free_iff.mp m]
  | shared => simp [held (by simp [m])]
  | exclusive => simp [held (by simp [m])]

/-! ## What the order decides -/

/-- Of two requests, the later one waits if the earlier one does. -/
lemma Consistent.waits_behind (c : l.Consistent) (order : [w, v].Sublist l.requests)
    (waits : w ∈ l.waiters) : v ∈ l.waiters := by
  obtain ⟨front, back, split, held, queued⟩ := List.sublist_append_iff.mp order
  cases front with
  | nil =>
    obtain rfl : [w, v] = back := split
    exact queued.mem (by simp)
  | cons u rest =>
    -- the earlier request would be that of a holder
    obtain ⟨rfl, -⟩ := List.cons.inj split
    obtain ⟨x, holds, rfl⟩ := List.mem_map.mp (held.mem (List.mem_cons_self ..))
    exact absurd holds (c.not_holder waits)

/-- Two requests that were granted became holders in their order. -/
lemma Consistent.hold_in_order (c : l.Consistent) (order : [w, v].Sublist l.requests)
    (holds : v.holder ∈ l.holders) : [w.holder, v.holder].Sublist l.holders := by
  obtain ⟨front, back, split, held, queued⟩ := List.sublist_append_iff.mp order
  have none : back = [] := by
    rcases List.eq_nil_or_concat' back with nil | ⟨rest, last, rfl⟩
    · exact nil
    · -- the later request would be that of a waiter
      have eq : [w] ++ [v] = (front ++ rest) ++ [last] := by
        rw [List.append_assoc]
        exact split
      obtain ⟨-, tail⟩ := List.append_inj' eq rfl
      obtain rfl : v = last := by simpa using tail
      exact absurd holds (c.not_holder (queued.mem (by simp)))
  rw [none, List.append_nil] at split
  have granted := held.map Waiter.holder
  rw [← split] at granted
  simpa [Function.comp_def, Holder.request, Waiter.holder] using granted

/-- A holder whose request stays goes on holding the lock, whoever else withdraws or joins. -/
lemma Consistent.holder_stays (c : l.Consistent) (c' : l'.Consistent) (s' : l'.Settled)
    {gone : Waiter → Bool} {joined : List Waiter}
    (requests : l'.requests = l.requests.filter (!gone ·) ++ joined) (holds : x ∈ l.holders)
    (stays : gone (x.request l.mode) = false) : x ∈ l'.holders := by
  let kept := (l.holders.map (·.request l.mode)).filter (!gone ·)
  let queue := l.waiters.filter (!gone ·) ++ joined
  have mem : x.request l.mode ∈ kept :=
    List.mem_filter.mpr ⟨List.mem_map_of_mem holds, by simp [stays]⟩
  have parts : l'.requests = kept ++ queue := by
    rw [requests, LockState.requests, List.filter_append, List.append_assoc]
  have holders : l'.holders = (arrange (kept ++ queue)).2.1 := by
    rw [← parts, c'.arrange_requests s']
    rfl
  have modes : ∀ v ∈ kept, v.mode = l.mode := by
    intro v mem
    obtain ⟨y, -, rfl⟩ := List.mem_map.mp (List.mem_of_mem_filter mem)
    rfl
  have filled : kept ≠ [] := List.ne_nil_of_mem mem
  rw [holders]
  cases mode : l.mode with
  | none =>
    rw [c.free_iff.mp mode] at holds
    cases holds
  | exclusive =>
    -- the lone holder heads the requests
    obtain ⟨y, alone⟩ := List.length_eq_one_iff.mp (c.alone mode)
    have lone : kept = [x.request l.mode] := by
      rw [alone, List.mem_singleton] at holds
      simp [kept, alone, ← holds, stays]
    have exclusive : (x.request l.mode).mode = .exclusive := mode
    rw [lone, List.singleton_append, arrange, if_pos exclusive]
    exact List.mem_singleton.mpr rfl
  | shared =>
    have shared : ∀ v ∈ kept, v.mode = .shared := fun v mem => (modes v mem).trans mode
    rw [arrange_run filled shared, List.map_append]
    exact List.mem_append_left _ (List.mem_map.mpr ⟨_, mem, rfl⟩)

/-! ## Turns -/

/-- Some handles in the order of their requests, as far as they hold the lock or wait for it. -/
def turns (l : LockState) (handles : List HandleId) : List HandleId :=
  (l.requests.map Waiter.handle).filter handles.contains

/-- The later of two requests is granted neither while the earlier one waits nor ahead of it. -/
def InTurn (l : LockState) (w v : Waiter) : Prop :=
  v.holder ∈ l.holders → w ∉ l.waiters ∧
    (w.holder ∈ l.holders → [w.holder, v.holder].Sublist l.holders)

variable {handles : List HandleId}

/-- Holders have their turns before waiters. -/
lemma turns_eq : l.turns handles = (l.holders.map Holder.handle).filter handles.contains ++
    (l.waiters.map Waiter.handle).filter handles.contains := by
  rw [turns, map_handle_requests, List.filter_append]

/-- A grant to somebody else changes no turn. -/
lemma turns_grant (stranger : x.handle ∉ handles) : (l.grant x mode).turns handles = l.turns handles := by
  simp [turns_eq, grant, stranger]

/-- A request by somebody else changes no turn. -/
lemma turns_queue (stranger : w.handle ∉ handles) : (l.queue w).turns handles = l.turns handles := by
  simp [turns_eq, queue, stranger]

/-- Turns are only lost when handles are taken out. -/
lemma turns_without (gone : HandleId → Bool) :
    ((l.without gone).turns handles).Sublist (l.turns handles) := by
  rw [turns_eq, turns_eq]
  have holders := (List.filter_sublist (p := (!gone ·.handle)) (l := l.holders)).map Holder.handle
  have waiters := (List.filter_sublist (p := (!gone ·.handle)) (l := l.waiters)).map Waiter.handle
  exact (holders.filter _).append (waiters.filter _)

/-- Those served hold the lock in the order in which they waited. -/
lemma turns_promote : l.promote.2.turns handles = l.turns handles := by
  obtain ⟨holders, waiters⟩ := serve_parts (l := l) l.waiters
  have handle : (l.serve l.waiters).1.map (Holder.handle ∘ Waiter.holder) =
      (l.serve l.waiters).1.map Waiter.handle := rfl
  rw [turns, map_handle_requests, promote, holders, List.map_append, List.map_map, handle,
    List.append_assoc, ← List.map_append, waiters, ← map_handle_requests, turns]

/-- Two requests make two turns. -/
lemma Consistent.turns_of_order (c : l.Consistent) (order : [w, v].Sublist l.requests) :
    l.turns [w.handle, v.handle] = [w.handle, v.handle] := by
  have kept := (order.map Waiter.handle).filter [w.handle, v.handle].contains
  have both : [w.handle, v.handle].filter [w.handle, v.handle].contains = [w.handle, v.handle] :=
    List.filter_eq_self.mpr fun h mem => List.contains_iff_mem.mpr mem
  rw [List.map_cons, List.map_singleton, both] at kept
  have few : (l.turns [w.handle, v.handle]).Subperm [w.handle, v.handle] :=
    (c.requests_nodup.filter _).subperm fun h mem => List.contains_iff_mem.mp (List.mem_filter.mp mem).2
  exact (kept.eq_of_length_le few.length_le).symm

/-- One of two holders was granted the lock first. -/
lemma holders_in_order {y : Holder} (holds : x ∈ l.holders) (holds' : y ∈ l.holders) (apart : x ≠ y) :
    [x, y].Sublist l.holders ∨ [y, x].Sublist l.holders := by
  obtain ⟨front, back, split⟩ := List.append_of_mem holds'
  rw [split] at holds ⊢
  rcases List.mem_append.mp holds with before | after
  · exact .inl ((List.singleton_sublist.mpr before).append
      (List.singleton_sublist.mpr (List.mem_cons_self ..)))
  · have behind := List.singleton_sublist.mpr (List.mem_of_ne_of_mem apart after)
    exact .inr ((behind.cons_cons y).trans (List.sublist_append_right ..))

/-- Of two handles whose turns come in this order, the second does not hold the lock while the first
one waits for it, and if both hold it they were granted it in this order. -/
lemma inTurn_of_turns (apart : w.handle ≠ v.handle)
    (turns : (l.turns [w.handle, v.handle]).Sublist [w.handle, v.handle]) : l.InTurn w v := by
  have crossed : ∀ {holders waiters : List HandleId}, holders.Sublist (l.holders.map Holder.handle) →
      waiters.Sublist (l.waiters.map Waiter.handle) → holders ++ waiters ≠ [v.handle, w.handle] := by
    intro holders waiters held queued swapped
    have sub := (held.append queued).filter [w.handle, v.handle].contains
    rw [swapped, List.filter_eq_self.mpr (by simp), ← map_handle_requests] at sub
    obtain ⟨eq, -⟩ := List.cons.inj ((sub.trans turns).eq_of_length rfl)
    exact apart eq.symm
  refine fun holds => ⟨fun waits => ?_, fun holds' => ?_⟩
  · exact crossed (List.singleton_sublist.mpr (List.mem_map_of_mem holds))
      (List.singleton_sublist.mpr (List.mem_map_of_mem waits)) rfl
  · rcases holders_in_order holds' holds fun eq => apart (congrArg Holder.handle eq) with
      order | order
    · exact order
    · exact absurd rfl (crossed (order.map Holder.handle) (List.nil_sublist _))

end Coordination.LockState
