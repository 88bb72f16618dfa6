import Coordination.Delivery.Router
import Coordination.Proofs.Maps

/-!
# Lanes and the barriers in them

What is said here concerns one handle. `seen` are its events that the router has taken, `done` those
for which the callback has returned. A barrier is stamped with the number of events it was put
behind, and `Lane.Stamped` says that the lane of the handle cannot reach a barrier before its
callback has returned for that many events. Barriers in other lanes are stamped with zero, so for
the handle it does not matter when they are passed.
-/

namespace Coordination

/-- The event in the queue of a lane, if the item is one. -/
def LaneItem.event? : LaneItem → Option Notification
  | .event n => some n
  | .barrier _ => none

/-- The event an item is. -/
@[simp] lemma LaneItem.event?_event (n : Notification) : (event n).event? = some n := rfl

/-- A barrier is no event. -/
@[simp] lemma LaneItem.event?_barrier (b : BarrierId) : (barrier b).event? = none := rfl

/-- An event if it is for the handle. -/
def Event.to (e : Event) (handle : HandleId) : List Notification :=
  if e.handle = handle then [e.notification] else []

/-- Events of other handles are not for this one. -/
lemma Event.to_of_ne {e : Event} {handle : HandleId} (other : e.handle ≠ handle) :
    e.to handle = [] :=
  if_neg other

namespace Lane

/-- The event whose callback has not returned. -/
def current (l : Lane) : List Notification :=
  match l.state with
  | .busy n => [n]
  | _ => []

/-- The events whose callback has still to return. -/
def pending (l : Lane) : List Notification := l.current ++ l.queue.filterMap LaneItem.event?

/-- Those of them that come before a barrier. -/
def ahead (l : Lane) (b : BarrierId) : List Notification :=
  l.current ++ (l.queue.takeWhile (· ≠ .barrier b)).filterMap LaneItem.event?

/-- One more item for a lane. -/
def push (l : Lane) (item : LaneItem) : Lane := { l with queue := l.queue ++ [item] }

/-- The barriers in a lane are old, and none has fewer events before it than its stamp says. -/
structure Stamped (l : Lane) (handle : HandleId) (seen done : List Notification)
    (stamp : BarrierId → Nat) (next : BarrierId) : Prop where
  old : ∀ b, .barrier b ∈ l.queue → b < next
  foreign : l.handle ≠ handle → ∀ b, .barrier b ∈ l.queue → stamp b = 0
  alive : l.handle = handle → l.state ≠ .dead
  conserved : l.handle = handle → seen = done ++ l.pending
  behind : l.handle = handle → ∀ b, .barrier b ∈ l.queue →
    stamp b ≤ done.length + (l.ahead b).length

variable {l : Lane} {handle : HandleId} {seen done seen' done' : List Notification}
variable {stamp : BarrierId → Nat} {next b : BarrierId} {n : Notification} {rest : List LaneItem}

/-! ## Queues -/

/-- What is pending after an item was queued. -/
lemma pending_push (item : LaneItem) :
    (l.push item).pending = l.pending ++ item.event?.toList := by
  cases item <;> simp [pending, push, current]

/-- What is put behind a barrier is not before it. -/
lemma ahead_push (item : LaneItem) (queued : .barrier b ∈ l.queue) :
    (l.push item).ahead b = l.ahead b := by
  have cut : (l.queue ++ [item]).takeWhile (· ≠ .barrier b) =
      l.queue.takeWhile (· ≠ .barrier b) := by
    rw [List.takeWhile_append, if_neg]
    intro all
    have out := List.mem_takeWhile_imp ((List.takeWhile_prefix _).eq_of_length all ▸ queued)
    simp at out
  rw [ahead, push, cut]
  rfl

/-- Everything is before a barrier that has just been put in. -/
lemma ahead_push_barrier (fresh : .barrier b ∉ l.queue) :
    (l.push (.barrier b)).ahead b = l.pending := by
  have cut : (l.queue ++ [LaneItem.barrier b]).takeWhile (· ≠ .barrier b) = l.queue := by
    rw [List.takeWhile_append_of_pos]
    · simp
    · intro item mem
      simp only [ne_eq, decide_eq_true_eq]
      rintro rfl
      exact fresh mem
  rw [ahead, push, cut]
  rfl

/-! ## What a lane does -/

/-- For the lanes of other handles only their barriers matter. -/
lemma Stamped.of_foreign (st : l.Stamped handle seen done stamp next) (other : l.handle ≠ handle) :
    l.Stamped handle seen' done' stamp next :=
  ⟨st.old, st.foreign, fun own => absurd own other, fun own => absurd own other,
    fun own => absurd own other⟩

/-- An event is queued behind the barriers there are. -/
lemma Stamped.push_event (st : l.Stamped handle seen done stamp next) {e : Event}
    (same : e.handle = l.handle) :
    (l.push (.event e.notification)).Stamped handle (seen ++ e.to handle) done stamp next := by
  have barriers : ∀ b, .barrier b ∈ (l.push (.event e.notification)).queue →
      .barrier b ∈ l.queue := by
    intro b mem
    simpa [push] using mem
  refine ⟨fun b mem => st.old b (barriers b mem), ?_, st.alive, ?_, ?_⟩
  · exact fun other b mem => st.foreign other b (barriers b mem)
  · intro own
    have mine : e.handle = handle := same.trans own
    rw [st.conserved own, pending_push, Event.to, if_pos mine, List.append_assoc]
    rfl
  · intro own b mem
    rw [ahead_push _ (barriers b mem)]
    exact st.behind own b (barriers b mem)

/-- A new barrier is stamped with the number of events seen. -/
lemma Stamped.push_barrier (st : l.Stamped handle seen done stamp next) :
    (l.push (.barrier next)).Stamped handle seen done
      (Function.update stamp next (if l.handle = handle then seen.length else 0)) (next + 1) := by
  have fresh : .barrier next ∉ l.queue := fun mem => (st.old next mem).false
  have cases : ∀ b, .barrier b ∈ (l.push (.barrier next)).queue →
      .barrier b ∈ l.queue ∧ b ≠ next ∨ b = next := by
    intro b mem
    by_cases eq : b = next
    · exact .inr eq
    · exact .inl ⟨by simpa [push, eq] using mem, eq⟩
  refine ⟨?_, ?_, st.alive, ?_, ?_⟩
  · intro b mem
    rcases cases b mem with ⟨old, -⟩ | rfl
    · exact (st.old b old).trans (Nat.lt_succ_self _)
    · exact Nat.lt_succ_self _
  · intro (other : l.handle ≠ handle) b mem
    rcases cases b mem with ⟨old, ne⟩ | eq
    · rw [Function.update_of_ne ne]
      exact st.foreign other b old
    · rw [eq, Function.update_self, if_neg other]
  · intro own
    rw [st.conserved own, pending_push]
    simp
  · intro (own : l.handle = handle) b mem
    rcases cases b mem with ⟨old, ne⟩ | eq
    · rw [Function.update_of_ne ne, ahead_push _ old]
      exact st.behind own b old
    · rw [eq, Function.update_self, if_pos own, ahead_push_barrier fresh, st.conserved own,
        List.length_append]

/-- A barrier in another lane changes nothing. -/
lemma Stamped.restamp (st : l.Stamped handle seen done stamp next) (n : Nat) :
    l.Stamped handle seen done (Function.update stamp next n) (next + 1) := by
  have same : ∀ b, .barrier b ∈ l.queue → Function.update stamp next n b = stamp b :=
    fun b mem => Function.update_of_ne (st.old b mem).ne _ _
  refine ⟨fun b mem => (st.old b mem).trans (Nat.lt_succ_self _), ?_, st.alive, st.conserved, ?_⟩
  · intro other b mem
    rw [same b mem]
    exact st.foreign other b mem
  · intro own b mem
    rw [same b mem]
    exact st.behind own b mem

/-- A lane that calls its callback has the same events to deliver. -/
lemma Stamped.begin (st : l.Stamped handle seen done stamp next) (idle : l.state = .idle)
    (queue : l.queue = .event n :: rest) :
    { l with state := .busy n, queue := rest }.Stamped handle seen done stamp next := by
  have barriers : ∀ b, .barrier b ∈ rest → .barrier b ∈ l.queue := by
    intro b mem
    rw [queue]
    exact List.mem_cons_of_mem _ mem
  refine ⟨fun b mem => st.old b (barriers b mem), ?_, fun _ => nofun, ?_, ?_⟩
  · exact fun other b mem => st.foreign other b (barriers b mem)
  · intro own
    have same := st.conserved own
    simpa [pending, current, idle, queue] using same
  · intro own b mem
    have before := st.behind own b (barriers b mem)
    simpa [ahead, current, idle, queue] using before

/-- When a callback returns, the event has been dealt with. -/
lemma Stamped.finish (st : l.Stamped handle seen done stamp next) (busy : l.state = .busy n) :
    { l with state := .idle }.Stamped handle seen
      (done ++ if l.handle = handle then [n] else []) stamp next := by
  refine ⟨st.old, st.foreign, fun _ => nofun, ?_, ?_⟩
  · intro (own : l.handle = handle)
    have same := st.conserved own
    simpa [own, pending, current, busy] using same
  · intro (own : l.handle = handle) b mem
    have before := st.behind own b mem
    simp only [ahead, current, busy, List.length_append, List.length_cons, List.length_nil]
      at before
    simp only [own, if_true, ahead, current, List.length_append, List.length_cons, List.length_nil]
    omega

/-- A lane passes a barrier when it has nothing to deliver before it. -/
lemma Stamped.pass (st : l.Stamped handle seen done stamp next) (idle : l.state = .idle)
    (queue : l.queue = .barrier b :: rest) :
    { l with queue := rest }.Stamped handle seen done stamp next ∧ stamp b ≤ done.length := by
  have first : .barrier b ∈ l.queue := by
    rw [queue]
    exact List.mem_cons_self ..
  have barriers : ∀ c, .barrier c ∈ rest → .barrier c ∈ l.queue := by
    intro c mem
    rw [queue]
    exact List.mem_cons_of_mem _ mem
  have reached : stamp b ≤ done.length := by
    by_cases own : l.handle = handle
    · have before := st.behind own b first
      simpa [ahead, current, idle, queue] using before
    · rw [st.foreign own b first]
      exact Nat.zero_le _
  refine ⟨⟨fun c mem => st.old c (barriers c mem), ?_, st.alive, ?_, ?_⟩, reached⟩
  · exact fun other c mem => st.foreign other c (barriers c mem)
  · intro own
    have same := st.conserved own
    simpa [pending, current, idle, queue, List.filterMap_cons] using same
  · intro own c mem
    by_cases eq : c = b
    · subst eq
      exact reached.trans (Nat.le_add_right ..)
    · have before := st.behind own c (barriers c mem)
      have other : LaneItem.barrier b ≠ .barrier c := by
        rintro ⟨⟩
        exact eq rfl
      simpa [ahead, current, idle, queue, other, List.filterMap_cons] using before

/-- A dead lane of another handle has no barriers left. -/
lemma stamped_dead (other : l.handle ≠ handle) :
    { l with state := .dead, queue := [] }.Stamped handle seen done stamp next :=
  ⟨fun _ mem => (nomatch mem), fun _ _ mem => (nomatch mem), fun own => absurd own other,
    fun own => absurd own other, fun own => absurd own other⟩

end Lane

namespace Delivery

/-- The handle that a lane belongs to. -/
def owner? (d : Delivery) (i : LaneId) : Option HandleId := (d.lanes.get? i).map Lane.handle

/-- Lanes are numbered in turn, and a handle that is not retired has no lane but its open one. -/
structure Seats (d : Delivery) (handle : HandleId) (retired : Prop) : Prop where
  old : ∀ i k, d.owner? i = some k → i < d.nextLane
  owner : ∀ k i, d.active.get? k = some i → d.owner? i = some k
  single : ∀ i j, d.owner? i = some handle → d.owner? j = some handle → i = j
  opened : ∀ i, d.owner? i = some handle → d.active.get? handle = some i ∨ retired

/-- All lanes are stamped, and barriers that are passed have nothing left before them. -/
structure Marks (d : Delivery) (handle : HandleId) (seen done : List Notification)
    (stamp : BarrierId → Nat) : Prop where
  lanes : ∀ i l, d.lanes.get? i = some l → l.Stamped handle seen done stamp d.nextBarrier
  passed : ∀ b, b ∈ d.passed → b < d.nextBarrier ∧ stamp b ≤ done.length

/-- Barriers have been put into lanes; the one in the lane of the handle is stamped with all that
was seen. -/
structure Barred (d : Delivery) (handle : HandleId) (seen done : List Notification)
    (stamp : BarrierId → Nat) (targets : List LaneId) (barriers : List BarrierId) (d' : Delivery)
    (stamp' : BarrierId → Nat) : Prop where
  rest : d' = { d with lanes := d'.lanes, nextBarrier := d'.nextBarrier }
  owner : ∀ i, d'.owner? i = d.owner? i
  next : d.nextBarrier ≤ d'.nextBarrier
  older : ∀ b, b < d.nextBarrier → stamp' b = stamp b
  marks : d'.Marks handle seen done stamp'
  fresh : ∀ b ∈ barriers, b < d'.nextBarrier
  covers : ∀ i ∈ targets, d.owner? i = some handle → ∃ b ∈ barriers, stamp' b = seen.length

variable {d d' d₁ d₂ d₃ : Delivery} {handle : HandleId} {seen done seen' done' : List Notification}
variable {stamp stamp' stamp₁ stamp₂ stamp₃ : BarrierId → Nat} {i : LaneId} {l l' : Lane}
variable {retired : Prop} {targets targets' : List LaneId} {barriers barriers' : List BarrierId}

/-- The owner of a lane that is there. -/
lemma owner?_of_get? (found : d.lanes.get? i = some l) : d.owner? i = some l.handle := by
  rw [owner?, found]
  rfl

/-- A lane keeps its handle, whatever it does. -/
lemma owner?_insert (found : d.lanes.get? i = some l) (same : l'.handle = l.handle) (j : LaneId) :
    ((d.lanes.insert i l').get? j).map Lane.handle = d.owner? j := by
  rw [FinMap.get?_insert, owner?]
  split
  case isTrue eq =>
    rw [eq, found]
    exact congrArg some same
  case isFalse => rfl

/-- The events of the handle matter to its own lane alone. -/
lemma Marks.lanes_insert (marks : d.Marks handle seen done stamp) (seats : d.Seats handle retired)
    (found : d.lanes.get? i = some l) (own : l.handle = handle ∨ seen' = seen ∧ done' = done)
    (stamped : l'.Stamped handle seen' done' stamp d.nextBarrier) (j : LaneId) (m : Lane)
    (found' : (d.lanes.insert i l').get? j = some m) :
    m.Stamped handle seen' done' stamp d.nextBarrier := by
  rw [FinMap.get?_insert] at found'
  split at found'
  case isTrue => exact Option.some.inj found' ▸ stamped
  case isFalse other =>
    have old := marks.lanes j m found'
    rcases own with own | ⟨rfl, rfl⟩
    · refine old.of_foreign fun mine => other ?_
      exact seats.single j i (mine ▸ owner?_of_get? found') (own ▸ owner?_of_get? found)
    · exact old

/-! ## Barriers that are put into lanes -/

/-- No barrier was asked for. -/
lemma Barred.refl (marks : d.Marks handle seen done stamp) :
    d.Barred handle seen done stamp [] [] d stamp where
  rest := rfl
  owner := fun _ => rfl
  next := le_rfl
  older := fun _ _ => rfl
  marks := marks
  fresh := fun _ mem => (nomatch mem)
  covers := fun _ mem => (nomatch mem)

/-- Barriers that were put in some lanes and then in others. -/
lemma Barred.trans (b : d₁.Barred handle seen done stamp₁ targets barriers d₂ stamp₂)
    (b' : d₂.Barred handle seen done stamp₂ targets' barriers' d₃ stamp₃) :
    d₁.Barred handle seen done stamp₁ (targets ++ targets') (barriers ++ barriers') d₃ stamp₃ where
  rest := by
    rw [b'.rest, b.rest]
  owner := fun i => (b'.owner i).trans (b.owner i)
  next := b.next.trans b'.next
  older := fun c old => (b'.older c (old.trans_le b.next)).trans (b.older c old)
  marks := b'.marks
  fresh := by
    intro c mem
    rcases List.mem_append.mp mem with mem | mem
    · exact (b.fresh c mem).trans_le b'.next
    · exact b'.fresh c mem
  covers := by
    intro i mem own
    rcases List.mem_append.mp mem with mem | mem
    · obtain ⟨c, here, eq⟩ := b.covers i mem own
      exact ⟨c, List.mem_append_left _ here, (b'.older c (b.fresh c here)).trans eq⟩
    · obtain ⟨c, here, eq⟩ := b'.covers i mem ((b.owner i).trans own)
      exact ⟨c, List.mem_append_right _ here, eq⟩

/-- A lane takes an item unless it is dead or does not exist. -/
lemma push?_cases (d : Delivery) (i : LaneId) (item : LaneItem) :
    d.push? i item = none ∧ (∀ l, d.lanes.get? i = some l → l.state = .dead) ∨
    ∃ l, d.lanes.get? i = some l ∧ l.state ≠ .dead ∧
      d.push? i item = some { d with lanes := d.lanes.insert i (l.push item) } := by
  cases found : d.lanes.get? i with
  | none => exact .inl ⟨by simp [push?, found], nofun⟩
  | some l =>
    by_cases dead : l.state = .dead
    · refine .inl ⟨by simp [push?, found, dead], ?_⟩
      rintro _ ⟨⟩
      exact dead
    · exact .inr ⟨l, rfl, dead, by simp [push?, found, dead, Lane.push]⟩

/-- One barrier is put into a lane. -/
lemma Marks.pushBarrier (marks : d.Marks handle seen done stamp) (i : LaneId) : ∃ stamp',
    d.Barred handle seen done stamp [i] (d.pushBarrier i).1.toList (d.pushBarrier i).2 stamp' := by
  rcases d.push?_cases i (.barrier d.nextBarrier) with ⟨refused, dead⟩ | ⟨l, found, -, pushed⟩
  · have same : d.pushBarrier i = (none, d) := by rw [Delivery.pushBarrier, refused]
    rw [same]
    refine ⟨stamp, { Barred.refl marks with covers := ?_ }⟩
    -- the lane of the handle is not dead
    intro j mem own
    obtain ⟨l, found, rfl⟩ := Option.map_eq_some_iff.mp own
    obtain rfl := List.mem_singleton.mp mem
    exact absurd (dead l found) ((marks.lanes j l found).alive rfl)
  · have put : d.pushBarrier i = (some d.nextBarrier, { d with
        lanes := d.lanes.insert i (l.push (.barrier d.nextBarrier))
        nextBarrier := d.nextBarrier + 1 }) := by
      rw [Delivery.pushBarrier, pushed]
    let value := if l.handle = handle then seen.length else 0
    rw [put]
    refine ⟨Function.update stamp d.nextBarrier value, rfl, ?_, Nat.le_succ _, ?_, ⟨?_, ?_⟩, ?_, ?_⟩
    · exact owner?_insert found rfl
    · exact fun b old => Function.update_of_ne old.ne _ _
    · intro j m found'
      rw [FinMap.get?_insert] at found'
      split at found'
      case isTrue => exact Option.some.inj found' ▸ (marks.lanes i l found).push_barrier
      case isFalse => exact (marks.lanes j m found').restamp value
    · intro b mem
      obtain ⟨old, reached⟩ := marks.passed b mem
      exact ⟨old.trans (Nat.lt_succ_self _), by rwa [Function.update_of_ne old.ne]⟩
    · intro b mem
      obtain rfl := List.mem_singleton.mp mem
      exact Nat.lt_succ_self _
    · intro j mem own
      obtain rfl := List.mem_singleton.mp mem
      rw [owner?_of_get? found] at own
      refine ⟨d.nextBarrier, List.mem_singleton.mpr rfl, ?_⟩
      rw [Function.update_self]
      exact if_pos (Option.some.inj own)

/-- Barriers are put into lanes one after another. -/
lemma Marks.pushBarriers (marks : d.Marks handle seen done stamp) (targets : List LaneId) :
    ∃ stamp', d.Barred handle seen done stamp targets (d.pushBarriers targets).1
      (d.pushBarriers targets).2 stamp' := by
  induction targets generalizing d stamp with
  | nil => exact ⟨stamp, .refl marks⟩
  | cons i rest ih =>
    obtain ⟨stamp₁, first⟩ := marks.pushBarrier i
    obtain ⟨stamp₂, others⟩ := ih first.marks
    exact ⟨stamp₂, first.trans others⟩

end Delivery

end Coordination
