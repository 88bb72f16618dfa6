import Mathlib
import Coordination.Lock.State

/-!
# The discipline of one lock

A lock is `Consistent` at any time and `Settled` between operations: nobody waits who could be
served. `release?` and `withdraw?` both take a handle out of the lock (`without`) and leave it
consistent; `promote` settles it again.

What carries the proofs is `requests`, everybody involved in the order of the requests. Serving
waiters does not change it, taking handles out filters it, and a consistent settled lock is
determined by it up to its generation (`arrange_requests`). So the order in which handles leave does
not matter.
-/

namespace Coordination

/-- The request that made a handle a holder in a mode. -/
def Holder.request (h : Holder) (mode : LockMode) : Waiter := ⟨h.session, h.handle, mode⟩

namespace LockState

/-- What holds of a lock at any time, whether or not a waiter could be served. -/
structure Consistent (l : LockState) : Prop where
  free_iff : l.mode = .none ↔ l.holders = []
  alone : l.mode = .exclusive → l.holders.length = 1
  unique : (l.holders.map Holder.handle ++ l.waiters.map Waiter.handle).Nodup
  asked : ∀ w ∈ l.waiters, w.mode ≠ .none

/-- The head of the queue, if there is one, cannot join the holders. -/
def Settled (l : LockState) : Prop := ∀ w rest, l.waiters = w :: rest → l.fits w.mode = false

/-- Takes handles out of a lock, be they holders or waiters. -/
def without (l : LockState) (gone : HandleId → Bool) : LockState :=
  { l with
    mode := if (l.holders.filter (!gone ·.handle)).isEmpty then .none else l.mode
    holders := l.holders.filter (!gone ·.handle)
    waiters := l.waiters.filter (!gone ·.handle) }

/-- Everybody involved in the order of the requests; holders have the mode they hold. -/
def requests (l : LockState) : List Waiter :=
  l.holders.map (·.request l.mode) ++ l.waiters

/-- The waiters that can join the holders: a lone exclusive one at a free lock, otherwise the
leading run of shared ones unless the lock is held exclusively. -/
def eligible (l : LockState) : List Waiter :=
  match l.mode, l.waiters with
  | .exclusive, _ => []
  | .none, w :: rest =>
    if w.mode = .exclusive then [w] else (w :: rest).takeWhile (·.mode = .shared)
  | _, waiters => waiters.takeWhile (·.mode = .shared)

/-- Mode, holders and waiters: a lock but for its generation. -/
def parties (l : LockState) : LockMode × List Holder × List Waiter := (l.mode, l.holders, l.waiters)

/-- Who holds and who waits when requests arrive one after another at a free lock. -/
def arrange : List Waiter → LockMode × List Holder × List Waiter
  | [] => (.none, [], [])
  | w :: rest =>
    if w.mode = .exclusive then (.exclusive, [w.holder], rest)
    else (.shared, ((w :: rest).takeWhile (·.mode = .shared)).map Waiter.holder,
      (w :: rest).dropWhile (·.mode = .shared))

variable {l : LockState} {handle : HandleId}

/-! ## Involvement -/

/-- A handle holds the lock if it is that of a holder. -/
lemma isHolder_iff : l.isHolder handle = true ↔ ∃ h ∈ l.holders, h.handle = handle := by
  simp [isHolder]

/-- A handle waits if it is that of a waiter. -/
lemma isWaiting_iff : l.isWaiting handle = true ↔ ∃ w ∈ l.waiters, w.handle = handle := by
  simp [isWaiting]

/-- A handle is involved if it made a request. -/
lemma involves_iff : l.involves handle = true ↔ ∃ w ∈ l.requests, w.handle = handle := by
  rw [involves, Bool.or_eq_true, isHolder_iff, isWaiting_iff]
  simp [requests, Holder.request, or_and_right, exists_or]

/-- A handle that is not involved made no request. -/
lemma ne_of_not_involves (fresh : l.involves handle = false) {w : Waiter} (mem : w ∈ l.requests) :
    w.handle ≠ handle := by
  intro eq
  rw [involves_iff.mpr ⟨w, mem, eq⟩] at fresh
  cases fresh

/-- A handle that is not involved is not among those of the requests. -/
lemma not_mem_handles (fresh : l.involves handle = false) :
    handle ∉ l.requests.map Waiter.handle := by
  intro mem
  obtain ⟨w, mem, eq⟩ := List.mem_map.mp mem
  exact ne_of_not_involves fresh mem eq

/-- The request of a holder is one of the requests. -/
lemma request_mem_requests {h : Holder} (mem : h ∈ l.holders) : h.request l.mode ∈ l.requests :=
  List.mem_append_left _ (List.mem_map_of_mem mem)

/-- The handles of the requests are those of the holders, then those of the waiters. -/
lemma map_handle_requests : l.requests.map Waiter.handle =
    l.holders.map Holder.handle ++ l.waiters.map Waiter.handle := by
  simp [requests, Holder.request, Function.comp_def]

/-- Each handle makes one request. -/
lemma Consistent.requests_nodup (c : l.Consistent) :
    (l.requests.map Waiter.handle).Nodup := by
  rw [map_handle_requests]
  exact c.unique

/-- Whoever waits for a lock does not hold it. -/
lemma Consistent.isHolder_of_waiting (c : l.Consistent) {w : Waiter} (waits : w ∈ l.waiters) :
    l.isHolder w.handle = false := by
  rw [Bool.eq_false_iff]
  intro holds
  obtain ⟨x, mem, eq⟩ := isHolder_iff.mp holds
  obtain ⟨-, -, apart⟩ := List.nodup_append.mp c.unique
  exact apart _ (List.mem_map_of_mem mem) _ (List.mem_map_of_mem waits) eq

/-- A lock nobody asked for is consistent and settled. -/
lemma consistent_free : free.Consistent where
  free_iff := by simp [free]
  alone := by simp [free]
  unique := by simp [free]
  asked := by simp [free]

/-- Nobody waits for a lock nobody asked for. -/
lemma settled_free : free.Settled := by
  intro w rest eq
  simp [free] at eq

/-- In a consistent lock the head of the queue is blocked by an exclusive holder, or by shared
ones that it cannot join. -/
lemma Consistent.fits_eq_false_iff (c : l.Consistent) {w : Waiter} (mem : w ∈ l.waiters) :
    l.fits w.mode = false ↔ l.mode = .exclusive ∨ l.mode = .shared ∧ w.mode = .exclusive := by
  have asked := c.asked w mem
  unfold fits
  cases l.mode <;> cases e : w.mode <;> simp_all

/-- Nobody waits for a lock that is settled and free. -/
lemma Settled.waiters_eq_nil (s : l.Settled) (free : l.mode = .none) : l.waiters = [] := by
  cases eq : l.waiters with
  | nil => rfl
  | cons w rest =>
    have blocked := s w rest eq
    simp [fits, free] at blocked

/-- Somebody holds a lock whose mode is shared. -/
lemma Consistent.holders_ne_nil (c : l.Consistent) (shared : l.mode = .shared) :
    l.holders ≠ [] := by
  intro nil
  rw [c.free_iff.mpr nil] at shared
  cases shared

/-- A consistent and settled lock passes the check between operations. -/
lemma Consistent.violation?_eq_none (c : l.Consistent) (s : l.Settled) : l.violation? = none := by
  have held : l.mode = .none → l.holders = [] := c.free_iff.mp
  have shared : l.mode = .shared → l.holders ≠ [] := c.holders_ne_nil
  have idle : l.holders = [] → l.waiters = [] := fun nil =>
    s.waiters_eq_nil (c.free_iff.mpr nil)
  unfold violation?
  rw [if_neg (by tauto), if_neg (by tauto), if_neg, if_neg (by tauto), if_neg]
  · exact fun dup => dup c.unique
  · rintro ⟨mode, ne⟩
    exact ne (c.alone mode)

/-! ## Newcomers -/

/-- Nobody waits for a lock that admits a newcomer. -/
lemma Settled.waiters_of_admits (s : l.Settled) {mode : LockMode} (admitted : l.admits mode = true) :
    l.waiters = [] := by
  unfold admits at admitted
  cases m : l.mode with
  | none => exact s.waiters_eq_nil m
  | shared =>
    rw [m] at admitted
    simpa using (Bool.and_eq_true_iff.mp admitted).2
  | exclusive => simp [m] at admitted

/-- A newcomer that the lock admits makes the last request. -/
lemma Consistent.requests_grant (c : l.Consistent) (s : l.Settled) (holder : Holder)
    {mode : LockMode} (admitted : l.admits mode = true) :
    (l.grant holder mode).requests = l.requests ++ [holder.request mode] := by
  have idle := s.waiters_of_admits admitted
  have mode : l.holders = [] ∨ l.mode = mode := by
    unfold admits at admitted
    cases m : l.mode with
    | none => exact .inl (c.free_iff.mp m)
    | shared =>
      rw [m] at admitted
      have shared : mode = .shared := by simpa using (Bool.and_eq_true_iff.mp admitted).1
      exact .inr shared.symm
    | exclusive => simp [m] at admitted
  rcases mode with nil | rfl
  · simp [requests, LockState.grant, idle, nil]
  · simp [requests, LockState.grant, idle]

/-- A waiter that is queued makes the last request. -/
lemma requests_queue (w : Waiter) : (l.queue w).requests = l.requests ++ [w] := by
  simp [LockState.queue, requests]

/-- A newcomer that the lock admits leaves it consistent, even where it overtakes waiters. -/
lemma Consistent.join (c : l.Consistent) (holder : Holder) {mode : LockMode}
    (asks : mode ≠ .none) (fresh : l.involves holder.handle = false)
    (admitted : l.admits mode = true) : (l.grant holder mode).Consistent where
  free_iff := by simp [LockState.grant, asks]
  alone := by
    intro excl
    have excl : mode = .exclusive := excl
    cases m : l.mode with
    | none => simp [LockState.grant, c.free_iff.mp m]
    | shared => simp [admits, m, excl] at admitted
    | exclusive => simp [admits, m] at admitted
  unique := by
    have apart := List.nodup_cons.mpr ⟨not_mem_handles fresh, c.requests_nodup⟩
    rw [map_handle_requests] at apart
    simpa [LockState.grant] using List.nodup_middle.mpr apart
  asked := c.asked

/-- A newcomer that the lock admits becomes a holder. -/
lemma Consistent.grant (c : l.Consistent) (s : l.Settled) (holder : Holder) {mode : LockMode}
    (asks : mode ≠ .none) (fresh : l.involves holder.handle = false)
    (admitted : l.admits mode = true) :
    (l.grant holder mode).Consistent ∧ (l.grant holder mode).Settled := by
  refine ⟨c.join holder asks fresh admitted, ?_⟩
  intro w rest eq
  simp [LockState.grant, s.waiters_of_admits admitted] at eq

/-- A request that waits leaves a lock consistent, whatever it waits for. -/
lemma Consistent.enqueue (c : l.Consistent) (w : Waiter) (asks : w.mode ≠ .none)
    (fresh : l.involves w.handle = false) : (l.queue w).Consistent where
  free_iff := c.free_iff
  alone := c.alone
  unique := by
    rw [← map_handle_requests, requests_queue]
    simpa using c.requests_nodup.concat (not_mem_handles fresh)
  asked := by
    intro v mem
    rcases List.mem_append.mp mem with mem | mem
    · exact c.asked v mem
    · rw [List.mem_singleton.mp mem]
      exact asks

/-- A newcomer that the lock does not admit waits its turn. -/
lemma Consistent.queue (c : l.Consistent) (s : l.Settled) (w : Waiter) (asks : w.mode ≠ .none)
    (fresh : l.involves w.handle = false) (refused : l.admits w.mode = false) :
    (l.queue w).Consistent ∧ (l.queue w).Settled := by
  refine ⟨c.enqueue w asks fresh, ?_⟩
  intro v rest eq
  cases old : l.waiters with
  | nil =>
    -- the newcomer heads the queue, and what does not admit it blocks it
    have head : w = v := by
      simp only [LockState.queue, old, List.nil_append, List.cons.injEq] at eq
      exact eq.1
    subst head
    unfold admits at refused
    simp only [LockState.queue, fits]
    cases m : l.mode <;> cases k : w.mode <;> simp_all
  | cons first others =>
    have head : first = v := by
      simp only [LockState.queue, old, List.cons_append, List.cons.injEq] at eq
      exact eq.1
    subst head
    exact s first others old

/-! ## Handles that leave -/

/-- The holders that stay. -/
@[simp] lemma without_holders (gone : HandleId → Bool) :
    (l.without gone).holders = l.holders.filter (!gone ·.handle) := rfl

/-- The waiters that stay. -/
@[simp] lemma without_waiters (gone : HandleId → Bool) :
    (l.without gone).waiters = l.waiters.filter (!gone ·.handle) := rfl

/-- Taking handles out filters the requests. -/
lemma requests_without (gone : HandleId → Bool) :
    (l.without gone).requests = l.requests.filter (!gone ·.handle) := by
  rw [requests, requests, List.filter_append, List.filter_map, without_waiters]
  congr 1
  -- the requests of holders carry the mode, which is reset when no holder is left
  by_cases nil : l.holders.filter (!gone ·.handle) = []
  · simp [nil, Function.comp_def, Holder.request]
  · have mode : (l.without gone).mode = l.mode := by
      simp only [without, List.isEmpty_iff, if_neg nil]
    rw [mode]
    rfl

/-- What is left of a consistent lock is consistent, if not always settled. -/
lemma Consistent.without (c : l.Consistent) (gone : HandleId → Bool) :
    (l.without gone).Consistent where
  free_iff := by
    by_cases nil : l.holders.filter (!gone ·.handle) = []
    · simp only [LockState.without, nil, List.isEmpty_nil, if_true]
    · simp only [LockState.without, List.isEmpty_iff, iff_false, nil]
      intro free
      rw [c.free_iff.mp free] at nil
      exact nil rfl
  alone := by
    intro excl
    by_cases nil : l.holders.filter (!gone ·.handle) = []
    · simp [LockState.without, nil] at excl
    · simp only [LockState.without, List.isEmpty_iff, if_neg nil] at excl
      obtain ⟨h, eq⟩ := List.length_eq_one_iff.mp (c.alone excl)
      rw [without_holders]
      rw [eq] at nil ⊢
      have kept : (!gone h.handle) = true := by
        by_contra lost
        exact nil (by simp [lost])
      simp [kept]
  unique := by
    rw [← map_handle_requests, requests_without]
    exact c.requests_nodup.sublist (List.filter_sublist.map _)
  asked := fun w mem => c.asked w (List.mem_of_mem_filter mem)

/-- A lock without holders is free already. -/
lemma Consistent.mode_eq (c : l.Consistent) :
    (if l.holders.isEmpty then LockMode.none else l.mode) = l.mode := by
  split
  case isTrue nil => exact (c.free_iff.mpr (List.isEmpty_iff.mp nil)).symm
  case isFalse => rfl

/-- Taking out a handle that is not involved changes nothing. -/
lemma Consistent.without_eq_self (c : l.Consistent) {gone : HandleId → Bool}
    (stay : ∀ w ∈ l.requests, gone w.handle = false) : l.without gone = l := by
  have holders : l.holders.filter (!gone ·.handle) = l.holders :=
    List.filter_eq_self.mpr fun h mem => by
      have := stay _ (request_mem_requests mem)
      simpa [Holder.request] using this
  have waiters : l.waiters.filter (!gone ·.handle) = l.waiters :=
    List.filter_eq_self.mpr fun w mem => by
      simpa using stay w (List.mem_append_right _ mem)
  unfold LockState.without
  rw [holders, waiters, c.mode_eq]

/-- Handles leave a lock one after another or at once. -/
lemma without_without (gone gone' : HandleId → Bool) :
    (l.without gone).without gone' = l.without fun h => gone h || gone' h := by
  have holders : (l.holders.filter (!gone ·.handle)).filter (!gone' ·.handle) =
      l.holders.filter fun h => !(gone h.handle || gone' h.handle) := by
    rw [List.filter_filter]
    exact List.filter_congr fun h _ => by rw [Bool.not_or, Bool.and_comm]
  have waiters : (l.waiters.filter (!gone ·.handle)).filter (!gone' ·.handle) =
      l.waiters.filter fun w => !(gone w.handle || gone' w.handle) := by
    rw [List.filter_filter]
    exact List.filter_congr fun w _ => by rw [Bool.not_or, Bool.and_comm]
  simp only [without, holders, waiters]
  -- the mode is reset by the last to leave
  by_cases nil : l.holders.filter (!gone ·.handle) = []
  · have none : l.holders.filter (fun h => !(gone h.handle || gone' h.handle)) = [] := by
      rw [← holders, nil]
      rfl
    rw [none]
    rfl
  · rw [if_neg (List.isEmpty_iff.not.mpr nil)]

/-- In a list in which each handle occurs once, taking out its occurrence filters it out. -/
lemma eraseP_eq_filter {α : Type} (key : α → HandleId) (handle : HandleId) {list : List α}
    (unique : (list.map key).Nodup) :
    list.eraseP (fun a => decide (key a = handle)) = list.filter (fun a => !decide (key a = handle)) := by
  induction list with
  | nil => rfl
  | cons a rest ih =>
    obtain ⟨fresh, unique⟩ := List.nodup_cons.mp unique
    by_cases eq : key a = handle
    · have others : rest.filter (fun a => !decide (key a = handle)) = rest :=
        List.filter_eq_self.mpr fun b mem => by
          have : key b ≠ handle := by
            rintro rfl
            exact fresh (eq ▸ List.mem_map_of_mem mem)
          simpa using this
      simp [eq, others]
    · simp [eq, ih unique]

/-- The release of a holder takes its handle out. -/
lemma Consistent.release?_eq (c : l.Consistent) (held : l.isHolder handle = true) :
    ∃ holder, l.release? handle = some (holder, l.without (· = handle)) := by
  obtain ⟨h, mem, eq⟩ := isHolder_iff.mp held
  obtain ⟨unique, -, apart⟩ := List.nodup_append.mp c.unique
  have holders := eraseP_eq_filter Holder.handle handle unique
  have waiters : l.waiters.filter (fun w => !decide (w.handle = handle)) = l.waiters :=
    List.filter_eq_self.mpr fun w hw => by
      have : w.handle ≠ handle := fun e =>
        apart _ (List.mem_map_of_mem mem) _ (List.mem_map_of_mem hw) (eq.trans e.symm)
      simpa using this
  have found : (l.holders.find? (·.handle = handle)).isSome := by
    rw [List.find?_isSome]
    exact ⟨h, mem, by simpa using eq⟩
  obtain ⟨holder, found⟩ := Option.isSome_iff_exists.mp found
  refine ⟨holder, ?_⟩
  simp only [release?, LockState.without, found, Option.map_some, holders, waiters]

/-- The withdrawal of a waiter takes its handle out. -/
lemma Consistent.withdraw?_eq (c : l.Consistent) (waiting : l.isWaiting handle = true) :
    ∃ w, l.withdraw? handle = some (w, l.without (· = handle)) := by
  obtain ⟨w, mem, eq⟩ := isWaiting_iff.mp waiting
  obtain ⟨-, unique, apart⟩ := List.nodup_append.mp c.unique
  have waiters := eraseP_eq_filter Waiter.handle handle unique
  have holders : l.holders.filter (fun h => !decide (h.handle = handle)) = l.holders :=
    List.filter_eq_self.mpr fun h hh => by
      have : h.handle ≠ handle := fun e =>
        apart _ (List.mem_map_of_mem hh) _ (List.mem_map_of_mem mem) (e.trans eq.symm)
      simpa using this
  have found : (l.waiters.find? (·.handle = handle)).isSome := by
    rw [List.find?_isSome]
    exact ⟨w, mem, by simpa using eq⟩
  obtain ⟨waiter, found⟩ := Option.isSome_iff_exists.mp found
  refine ⟨waiter, ?_⟩
  simp only [withdraw?, LockState.without, found, Option.map_some, holders, waiters, c.mode_eq]

/-- No waiter can be withdrawn that does not wait. -/
lemma withdraw?_eq_none (idle : l.isWaiting handle = false) : l.withdraw? handle = none := by
  have : l.waiters.find? (·.handle = handle) = none := by
    rw [List.find?_eq_none]
    intro w mem eq
    rw [isWaiting_iff.mpr ⟨w, mem, by simpa using eq⟩] at idle
    cases idle
  simp [withdraw?, this]

/-! ## Service -/

/-- What one grant at the head of the queue keeps, service keeps. -/
lemma serve_induction {P : LockState → Prop}
    (step : ∀ (l : LockState) (w : Waiter) (rest : List Waiter), l.fits w.mode = true →
      P { l with waiters := w :: rest } → P { l.grant w.holder w.mode with waiters := rest })
    (queue : List Waiter) (start : P { l with waiters := queue }) : P (l.serve queue).2 := by
  induction queue generalizing l with
  | nil => exact start
  | cons w rest ih =>
    rw [serve]
    split
    case isTrue fits => exact ih (step l w rest fits start)
    case isFalse => exact start

/-- A consistent lock stays consistent when its head is granted, and its requests stay the same. -/
lemma Consistent.grant_head {w : Waiter} {rest : List Waiter}
    (c : { l with waiters := w :: rest }.Consistent) (fits : l.fits w.mode = true) :
    { l.grant w.holder w.mode with waiters := rest }.Consistent ∧
      { l.grant w.holder w.mode with waiters := rest }.requests =
        { l with waiters := w :: rest }.requests := by
  have asks : w.mode ≠ .none := c.asked w (List.mem_cons_self ..)
  -- either nobody holds the lock and the grant sets its mode, or the mode stays shared
  have mode : l.mode = .none ∧ l.holders = [] ∨ l.mode = w.mode ∧ w.mode = .shared := by
    unfold LockState.fits at fits
    cases m : l.mode with
    | none => exact .inl ⟨rfl, c.free_iff.mp m⟩
    | shared => cases k : w.mode <;> simp_all
    | exclusive => simp [m] at fits
  have requests : { l.grant w.holder w.mode with waiters := rest }.requests =
      { l with waiters := w :: rest }.requests := by
    rcases mode with ⟨-, nil⟩ | ⟨eq, -⟩
    · simp [LockState.requests, LockState.grant, nil, Holder.request, Waiter.holder]
    · simp [LockState.requests, LockState.grant, eq, Holder.request, Waiter.holder]
  refine ⟨⟨?_, ?_, ?_, ?_⟩, requests⟩
  · simp [LockState.grant, asks]
  · intro excl
    have excl : w.mode = .exclusive := excl
    rcases mode with ⟨-, nil⟩ | ⟨-, shared⟩
    · simp [LockState.grant, nil]
    · rw [shared] at excl
      cases excl
  · rw [← map_handle_requests, requests]
    exact c.requests_nodup
  · exact fun v mem => c.asked v (List.mem_cons_of_mem w mem)

/-- Service keeps a lock consistent and its requests the same. -/
lemma Consistent.promote (c : l.Consistent) :
    l.promote.2.Consistent ∧ l.promote.2.requests = l.requests := by
  have step : ∀ (m : LockState) (w : Waiter) (rest : List Waiter), m.fits w.mode = true →
      ({ m with waiters := w :: rest }.Consistent ∧
        { m with waiters := w :: rest }.requests = l.requests) →
      { m.grant w.holder w.mode with waiters := rest }.Consistent ∧
        { m.grant w.holder w.mode with waiters := rest }.requests = l.requests := by
    intro m w rest fits ⟨c, eq⟩
    obtain ⟨c', eq'⟩ := c.grant_head fits
    exact ⟨c', eq'.trans eq⟩
  exact serve_induction (P := fun m => m.Consistent ∧ m.requests = l.requests) step l.waiters ⟨c, rfl⟩

/-- Service goes on until the head of the queue does not fit. -/
lemma settled_serve (queue : List Waiter) : (l.serve queue).2.Settled := by
  induction queue generalizing l with
  | nil =>
    intro w rest eq
    simp [serve] at eq
  | cons w rest ih =>
    rw [serve]
    split
    case isTrue => exact ih
    case isFalse blocked =>
      intro v others eq
      obtain ⟨rfl, -⟩ : w = v ∧ rest = others := by simpa using eq
      exact Bool.eq_false_iff.mpr blocked

/-- Once the waiters are served the next one is blocked. -/
lemma settled_promote : l.promote.2.Settled := settled_serve l.waiters

/-- Service changes nothing at a settled lock. -/
lemma Settled.promote_eq_self (s : l.Settled) : l.promote = ([], l) := by
  rw [LockState.promote]
  cases queue : l.waiters with
  | nil => rw [serve, ← queue]
  | cons w rest => rw [serve, s w rest queue, if_neg Bool.false_ne_true, ← queue]

/-- Nobody can be served at a settled lock. -/
lemma Settled.promote_eq_nil (s : l.Settled) : l.promote.1 = [] := by
  rw [s.promote_eq_self]

/-- Those served become holders in their order, and the others go on waiting in theirs. -/
lemma serve_parts (queue : List Waiter) :
    (l.serve queue).2.holders = l.holders ++ (l.serve queue).1.map Waiter.holder ∧
      (l.serve queue).1 ++ (l.serve queue).2.waiters = queue := by
  induction queue generalizing l with
  | nil => simp [serve]
  | cons w rest ih =>
    rw [serve]
    split
    case isTrue =>
      obtain ⟨holders, waiters⟩ := ih (l := l.grant w.holder w.mode)
      refine ⟨?_, ?_⟩
      · rw [holders]
        simp [LockState.grant]
      · simp [waiters]
    case isFalse => simp

/-- Those served were in the queue. -/
lemma promote_sublist : l.promote.1.Sublist l.waiters :=
  List.IsPrefix.sublist ⟨l.promote.2.waiters, (serve_parts l.waiters).2⟩

/-- Those served had asked. -/
lemma mem_requests_of_served {w : Waiter} (served : w ∈ l.promote.1) : w ∈ l.requests :=
  List.mem_append_right _ (promote_sublist.mem served)

/-- Those served are the waiters that hold the lock afterwards. -/
lemma Consistent.served_eq (c : l.Consistent) :
    l.waiters.filter (·.holder ∈ l.promote.2.holders) = l.promote.1 := by
  obtain ⟨holders, waiters⟩ := serve_parts (l := l) l.waiters
  have unique := (List.nodup_append.mp c.unique).2.1
  rw [← waiters, List.map_append] at unique
  have apart := (List.nodup_append.mp unique).2.2
  have served : l.promote.1.filter (·.holder ∈ l.promote.2.holders) = l.promote.1 := by
    refine List.filter_eq_self.mpr fun w mem => decide_eq_true ?_
    rw [LockState.promote, holders]
    exact List.mem_append_right _ (List.mem_map_of_mem mem)
  have unserved : l.promote.2.waiters.filter (·.holder ∈ l.promote.2.holders) = [] := by
    refine List.filter_eq_nil_iff.mpr fun w mem => ?_
    rw [decide_eq_true_eq, LockState.promote, holders]
    intro holds
    rcases List.mem_append.mp holds with old | new
    · have waits : w ∈ l.waiters := waiters ▸ List.mem_append_right _ mem
      have idle : l.isHolder w.holder.handle = false := c.isHolder_of_waiting waits
      rw [isHolder_iff.mpr ⟨w.holder, old, rfl⟩] at idle
      cases idle
    · obtain ⟨v, mem', eq⟩ := List.mem_map.mp new
      exact apart _ (List.mem_map_of_mem mem') _ (List.mem_map_of_mem mem)
        (congrArg Holder.handle eq)
  calc l.waiters.filter (·.holder ∈ l.promote.2.holders)
    _ = (l.promote.1 ++ l.promote.2.waiters).filter (·.holder ∈ l.promote.2.holders) := by
      rw [LockState.promote, waiters]
    _ = l.promote.1 := by rw [List.filter_append, served, unserved, List.append_nil]

/-- Nobody joins an exclusive holder. -/
lemma serve_exclusive (mode : l.mode = .exclusive) (queue : List Waiter) :
    (l.serve queue).1 = [] := by
  cases queue with
  | nil => rfl
  | cons w rest => simp [serve, fits, mode]

/-- Shared holders are joined by the leading run of shared requests. -/
lemma serve_shared (mode : l.mode = .shared) (queue : List Waiter) :
    (l.serve queue).1 = queue.takeWhile (·.mode = .shared) := by
  induction queue generalizing l with
  | nil => rfl
  | cons w rest ih =>
    rw [serve]
    cases k : w.mode with
    | shared => simp [fits, mode, k, ih (l := l.grant w.holder .shared) rfl]
    | none => simp [fits, mode, k]
    | exclusive => simp [fits, mode, k]

/-- Exactly the eligible waiters are served. -/
lemma Consistent.promote_eligible (c : l.Consistent) : l.promote.1 = l.eligible := by
  unfold LockState.promote eligible
  cases mode : l.mode with
  | exclusive => exact serve_exclusive mode _
  | shared => exact serve_shared mode _
  | none =>
    cases queue : l.waiters with
    | nil => rfl
    | cons w rest =>
      have asks := c.asked w (by simp [queue])
      rw [serve]
      cases k : w.mode with
      | none => exact absurd k asks
      | exclusive => simp [fits, mode, k, serve_exclusive (l := l.grant w.holder .exclusive) rfl]
      | shared => simp [fits, mode, k, serve_shared (l := l.grant w.holder .shared) rfl]

/-! ## Requests determine a settled lock -/

/-- Shared requests at the front are granted together, with those that follow them, up to the first
that is not shared. -/
lemma arrange_run {run queue : List Waiter} (filled : run ≠ [])
    (shared : ∀ w ∈ run, w.mode = .shared) : arrange (run ++ queue) =
      (.shared, (run ++ queue.takeWhile (·.mode = .shared)).map Waiter.holder,
        queue.dropWhile (·.mode = .shared)) := by
  have all : ∀ w ∈ run, decide (w.mode = .shared) = true := fun w mem => by
    simpa using shared w mem
  have taken : (run ++ queue).takeWhile (·.mode = .shared) =
      run ++ queue.takeWhile (·.mode = .shared) := List.takeWhile_append_of_pos all
  have dropped : (run ++ queue).dropWhile (·.mode = .shared) =
      queue.dropWhile (·.mode = .shared) := List.dropWhile_append_of_pos all
  cases run with
  | nil => exact absurd rfl filled
  | cons w others =>
    have head : w.mode ≠ .exclusive := by
      rw [shared w (List.mem_cons_self ..)]
      decide
    rw [List.cons_append] at taken dropped ⊢
    rw [arrange, if_neg head, taken, dropped, List.cons_append]

/-- Nobody follows them if the queue does not begin with a shared request. -/
lemma arrange_shared {run queue : List Waiter} (filled : run ≠ [])
    (shared : ∀ w ∈ run, w.mode = .shared)
    (stop : ∀ w rest, queue = w :: rest → w.mode ≠ .shared) :
    arrange (run ++ queue) = (.shared, run.map Waiter.holder, queue) := by
  rw [arrange_run filled shared]
  cases queue with
  | nil => simp
  | cons w rest => simp [stop w rest rfl]

/-- In a consistent lock that is settled, the holders are those whom the order of the requests lets
in. -/
lemma Consistent.arrange_requests (c : l.Consistent) (s : l.Settled) :
    arrange l.requests = l.parties := by
  cases mode : l.mode with
  | none =>
    have holders := c.free_iff.mp mode
    have waiters := s.waiters_eq_nil mode
    simp [requests, holders, waiters, arrange, parties, mode]
  | exclusive =>
    obtain ⟨h, holders⟩ := List.length_eq_one_iff.mp (c.alone mode)
    simp [requests, holders, arrange, parties, mode, Holder.request, Waiter.holder]
  | shared =>
    have filled := c.holders_ne_nil mode
    rw [requests, arrange_shared, parties, mode]
    · simp [Function.comp_def, Holder.request, Waiter.holder]
    · simpa using filled
    · intro w mem
      obtain ⟨h, -, rfl⟩ := List.mem_map.mp mem
      exact mode
    · intro w rest queue shared
      have blocked := s w rest queue
      rw [c.fits_eq_false_iff (by simp [queue]), mode, shared] at blocked
      simp at blocked

/-- Consistent settled locks with the same requests have the same mode, holders and waiters. -/
lemma Consistent.parties_eq {l' : LockState} (c : l.Consistent) (s : l.Settled)
    (c' : l'.Consistent) (s' : l'.Settled) (same : l.requests = l'.requests) :
    l.parties = l'.parties := by
  rw [← c.arrange_requests s, ← c'.arrange_requests s', same]

end LockState

end Coordination
