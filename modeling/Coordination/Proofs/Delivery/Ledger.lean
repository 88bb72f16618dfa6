import Coordination.Proofs.Delivery.History

/-!
# What the router has taken for a handle

Calls hand items to the router, and the router takes them one by one; lanes go on in between. A
`Ledger` follows one handle: it relates the state of delivery to the items taken so far, and to the
events of the handle for which the callback has returned. Every step keeps it, as long as the router
runs, no callback of the handle dies, and no event comes after the handle was retired.

Where the events before a flush stand is said by `Guarded`. They are done, or a barrier behind them
is waited for: by the flush itself, or by an earlier one that took the barrier of the retired lane
with it.
-/

namespace Coordination

namespace Delivery

variable {d d' : Delivery} {handle : HandleId} {done done' : List Notification}
variable {stamp stamp' : BarrierId → Nat} {taken : List RouterItem} {item : RouterItem}
variable {actions : List Action} {i : LaneId} {l l' : Lane} {f g : FlushId}

/-! ## The ledger -/

/-- The flush was taken after the handle was retired. -/
def Since (handle : HandleId) (taken : List RouterItem) (g : FlushId) : Prop :=
  ∃ before after, taken = before ++ .flush g :: after ∧ .retire handle ∈ before

/-- So many events are done, or a flush of a certain kind waits for a barrier behind them. -/
def Guarded (waiting : FinMap FlushId (List BarrierId)) (stamp : BarrierId → Nat)
    (done : List Notification) (n : Nat) (kind : FlushId → Prop) : Prop :=
  n ≤ done.length ∨ ∃ g bs, waiting.get? g = some bs ∧ kind g ∧ ∃ b ∈ bs, n ≤ stamp b

/-- A fresh barrier is behind all events of the handle, unless the handle has no open lane. -/
def Covered (handle : HandleId) (taken : List RouterItem) (stamp : BarrierId → Nat)
    (fresh : List BarrierId) : Prop :=
  (∃ b ∈ fresh, (events handle taken).length ≤ stamp b) ∨
  .retire handle ∈ taken ∨ events handle taken = []

/-- What is waited for is behind the events that a flush is about. -/
structure Waits (d : Delivery) (handle : HandleId) (taken : List RouterItem)
    (done : List Notification) (stamp : BarrierId → Nat) : Prop where
  draining : ∀ b ∈ d.draining, b < d.nextBarrier
  waiting : ∀ g bs, d.waiting.get? g = some bs →
    .flush g ∈ taken ∧ ∀ b ∈ bs, b < d.nextBarrier
  resolved : ∀ g ∈ d.resolved, .flush g ∈ taken ∧ d.waiting.get? g = none
  flushed : ∀ before f after, taken = before ++ .flush f :: after →
    Guarded d.waiting stamp done (events handle before).length
      fun g => g = f ∨ Since handle before g
  retired : .retire handle ∈ taken →
    (∃ b ∈ d.draining, (events handle taken).length ≤ stamp b) ∨
    Guarded d.waiting stamp done (events handle taken).length (Since handle taken)

/-- Nothing has been handed to the router, and it has taken nothing. -/
def SameCalls (d d' : Delivery) : Prop := d'.inbox = d.inbox ∧ d'.nextFlush = d.nextFlush

/-- What is known of a handle when the router has taken some items. -/
structure Ledger (d : Delivery) (handle : HandleId) (taken : List RouterItem)
    (done : List Notification) (stamp : BarrierId → Nat) : Prop where
  running : d.router = .running
  seats : d.Seats handle (.retire handle ∈ taken)
  unseen : (∀ i, d.owner? i ≠ some handle) → events handle taken = [] ∧ done = []
  marks : d.Marks handle (events handle taken) done stamp
  waits : d.Waits handle taken done stamp

/-- Nothing is known to begin with. -/
lemma Ledger.new : new.Ledger handle [] [] fun _ => 0 where
  running := rfl
  seats := ⟨nofun, nofun, nofun, nofun⟩
  unseen := fun _ => ⟨rfl, rfl⟩
  marks := ⟨nofun, nofun⟩
  waits := ⟨nofun, nofun, nofun, fun before f after eq => by simp at eq, nofun⟩

/-! ## What is waited for -/

variable {waiting waiting' : FinMap FlushId (List BarrierId)} {kind kind' : FlushId → Prop}
variable {n : Nat} {more : List BarrierId} {targets : List LaneId}

/-- What is guarded stays so while flushes keep waiting for barriers that keep their stamps. -/
lemma Guarded.mono (guarded : Guarded waiting stamp done n kind)
    (keep : ∀ g bs, waiting.get? g = some bs →
      waiting'.get? g = some bs ∧ ∀ b ∈ bs, stamp' b = stamp b)
    (weaker : ∀ g, kind g → kind' g) : Guarded waiting' stamp' done n kind' := by
  refine guarded.imp_right ?_
  rintro ⟨g, bs, waits, is, b, mem, behind⟩
  obtain ⟨waits', same⟩ := keep g bs waits
  exact ⟨g, bs, waits', weaker g is, b, mem, (same b mem).symm ▸ behind⟩

/-- What is guarded by flushes of one kind is guarded by those of a wider kind. -/
lemma Guarded.imp (guarded : Guarded waiting stamp done n kind) (weaker : ∀ g, kind g → kind' g) :
    Guarded waiting stamp done n kind' :=
  guarded.mono (fun _ _ waiting => ⟨waiting, fun _ _ => rfl⟩) weaker

/-- What is guarded stays so as more events are done. -/
lemma Guarded.grow (guarded : Guarded waiting stamp done n kind)
    (le : done.length ≤ done'.length) : Guarded waiting stamp done' n kind :=
  guarded.imp_left (·.trans le)

/-- A flush that came after the end of the handle stays where it is. -/
lemma Since.snoc (since : Since handle taken g) (item : RouterItem) :
    Since handle (taken ++ [item]) g := by
  obtain ⟨before, after, rfl, mem⟩ := since
  exact ⟨before, after ++ [item], by simp, mem⟩

/-- A flush among the items is the last one, or was there before that. -/
lemma snoc_eq_append {before after : List RouterItem}
    (eq : taken ++ [item] = before ++ .flush f :: after) :
    taken = before ∧ item = .flush f ∨ ∃ after', taken = before ++ .flush f :: after' := by
  rcases List.eq_nil_or_concat after with rfl | ⟨after', x, rfl⟩
  · obtain ⟨rfl, last⟩ := List.append_inj' eq rfl
    exact .inl ⟨rfl, (List.cons.inj last).1⟩
  · refine .inr ⟨after', ?_⟩
    rw [List.concat_eq_append, ← List.cons_append, ← List.append_assoc] at eq
    exact (List.append_inj' eq rfl).1

/-- A retirement brings no event. -/
lemma events_snoc_retire (h : HandleId) :
    events handle (taken ++ [.retire h]) = events handle taken := by
  simp [events]

/-- A flush brings no event. -/
lemma events_snoc_flush : events handle (taken ++ [.flush f]) = events handle taken := by
  simp [events]

/-- What is waited for stays so as more events are done. -/
lemma Waits.grow (waits : d.Waits handle taken done stamp) (le : done.length ≤ done'.length) :
    d.Waits handle taken done' stamp where
  draining := waits.draining
  waiting := waits.waiting
  resolved := waits.resolved
  flushed := fun before f after eq => (waits.flushed before f after eq).grow le
  retired := fun mem => (waits.retired mem).imp_right (·.grow le)

/-- Barriers that are put into lanes keep the stamps of those that are waited for. -/
lemma Waits.barred {seen : List Notification} {targets : List LaneId} {barriers : List BarrierId}
    (waits : d.Waits handle taken done stamp)
    (put : d.Barred handle seen done stamp targets barriers d' stamp') :
    d'.Waits handle taken done stamp' := by
  have keep : ∀ g bs, d.waiting.get? g = some bs →
      d.waiting.get? g = some bs ∧ ∀ b ∈ bs, stamp' b = stamp b :=
    fun g bs waiting => ⟨waiting, fun b mem => put.older b ((waits.waiting g bs waiting).2 b mem)⟩
  have next := put.next
  rw [put.rest]
  refine ⟨fun b mem => (waits.draining b mem).trans_le next, ?_, waits.resolved, ?_, ?_⟩
  · intro g bs waiting
    obtain ⟨mem, old⟩ := waits.waiting g bs waiting
    exact ⟨mem, fun b mem => (old b mem).trans_le next⟩
  · exact fun before f after eq => (waits.flushed before f after eq).mono keep fun _ => id
  · intro mem
    refine (waits.retired mem).imp ?_ (·.mono keep fun _ => id)
    rintro ⟨b, mem, behind⟩
    exact ⟨b, mem, (put.older b (waits.draining b mem)).symm ▸ behind⟩

/-- An item that is no flush changes what is waited for only by retiring the handle. -/
lemma Waits.snoc (waits : d.Waits handle taken done stamp) {bs : List BarrierId}
    (other : ∀ f, item ≠ .flush f) (old : ∀ b ∈ bs, b < d.nextBarrier)
    (retired : .retire handle ∈ taken ++ [item] →
      (∃ b ∈ bs, (events handle (taken ++ [item])).length ≤ stamp b) ∨
      Guarded d.waiting stamp done (events handle (taken ++ [item])).length
        (Since handle (taken ++ [item]))) :
    { d with draining := bs }.Waits handle (taken ++ [item]) done stamp where
  draining := old
  waiting := fun g bs waiting =>
    ⟨List.mem_append_left _ (waits.waiting g bs waiting).1, (waits.waiting g bs waiting).2⟩
  resolved := fun g mem =>
    ⟨List.mem_append_left _ (waits.resolved g mem).1, (waits.resolved g mem).2⟩
  flushed := by
    intro before f after eq
    rcases snoc_eq_append eq with ⟨-, flush⟩ | ⟨after', eq⟩
    · exact absurd flush (other f)
    · exact waits.flushed before f after' eq
  retired := retired

/-- An event of the handle comes before the handle is retired. -/
lemma Waits.deliver (waits : d.Waits handle taken done stamp) {e : Event} (callback : Callback)
    (before : .retire e.handle ∉ taken) :
    d.Waits handle (taken ++ [.deliver e callback]) done stamp := by
  refine waits.snoc nofun waits.draining ?_
  intro mem
  have mem : .retire handle ∈ taken := by simpa using mem
  have other : e.handle ≠ handle := fun eq => before (eq ▸ mem)
  have same : events handle (taken ++ [.deliver e callback]) = events handle taken := by
    simp [events, Event.to, other]
  rw [same]
  exact (waits.retired mem).imp_right (·.imp fun g since => since.snoc _)

/-- A handle is retired. If its lane is open, a barrier is put behind what it has to deliver. -/
lemma Waits.retire (waits : d.Waits handle taken done stamp) (h : HandleId)
    (old : ∀ b ∈ more, b < d.nextBarrier) (covered : h = handle → Covered handle taken stamp more) :
    { d with draining := d.draining ++ more }.Waits handle (taken ++ [RouterItem.retire h]) done
      stamp := by
  refine waits.snoc nofun (fun b mem => (List.mem_append.mp mem).elim (waits.draining b) (old b)) ?_
  intro mem
  rw [events_snoc_retire]
  have covered : Covered handle taken stamp more := by
    rcases List.mem_append.mp mem with mem | mem
    · exact .inr (.inl mem)
    · exact covered (RouterItem.retire.inj (List.mem_singleton.mp mem)).symm
  rcases covered with ⟨b, mem, behind⟩ | mem | none
  · exact .inl ⟨b, List.mem_append_right _ mem, behind⟩
  · refine (waits.retired mem).imp ?_ (·.imp fun g since => since.snoc _)
    rintro ⟨b, mem, behind⟩
    exact ⟨b, List.mem_append_left _ mem, behind⟩
  · exact .inr (.inl (none ▸ Nat.zero_le _))

/-- The flushes that are waiting go on when another one is taken. -/
lemma Waits.insert (waits : d.Waits handle taken done stamp) (fresh : .flush f ∉ taken)
    (cs bs : List BarrierId) (waiting : d.waiting.get? g = some bs) :
    (d.waiting.insert f cs).get? g = some bs := by
  have other : g ≠ f := by
    rintro rfl
    exact fresh (waits.waiting g bs waiting).1
  rw [FinMap.get?_insert, if_neg other]
  exact waiting

/-- A flush takes over the barriers of retired lanes. -/
lemma Waits.takeover (waits : d.Waits handle taken done stamp) (fresh : .flush f ∉ taken)
    (covered : Covered handle taken stamp more) (this : kind f)
    (since : ∀ g, Since handle taken g → kind g) :
    Guarded (d.waiting.insert f (d.draining ++ more)) stamp done (events handle taken).length
      kind := by
  have new : (d.waiting.insert f (d.draining ++ more)).get? f = some (d.draining ++ more) := by
    rw [FinMap.get?_insert, if_pos rfl]
  rcases covered with ⟨b, mem, behind⟩ | mem | none
  · exact .inr ⟨f, _, new, this, b, List.mem_append_right _ mem, behind⟩
  · rcases waits.retired mem with ⟨b, mem, behind⟩ | guarded
    · exact .inr ⟨f, _, new, this, b, List.mem_append_left _ mem, behind⟩
    · exact guarded.mono
        (fun g bs waiting => ⟨waits.insert fresh _ bs waiting, fun _ _ => rfl⟩) since
  · exact .inl (none ▸ Nat.zero_le _)

/-- A flush waits for the barriers of retired lanes, which are then forgotten, and for those it puts
into open ones. -/
lemma Waits.flush (waits : d.Waits handle taken done stamp) (fresh : .flush f ∉ taken)
    (old : ∀ b ∈ more, b < d.nextBarrier) (covered : Covered handle taken stamp more) :
    { d with waiting := d.waiting.insert f (d.draining ++ more), draining := [] }.Waits handle
      (taken ++ [RouterItem.flush f]) done stamp := by
  refine ⟨nofun, ?_, ?_, ?_, ?_⟩
  · intro g bs waiting
    rw [FinMap.get?_insert] at waiting
    split at waiting
    case isTrue eq =>
      obtain rfl := Option.some.inj waiting
      refine ⟨eq ▸ List.mem_append_right _ (List.mem_singleton_self _), fun b mem => ?_⟩
      exact (List.mem_append.mp mem).elim (waits.draining b) (old b)
    case isFalse =>
      obtain ⟨mem, old⟩ := waits.waiting g bs waiting
      exact ⟨List.mem_append_left _ mem, old⟩
  · intro g mem
    obtain ⟨mem, gone⟩ := waits.resolved g mem
    have other : g ≠ f := fun eq => fresh (eq ▸ mem)
    refine ⟨List.mem_append_left _ mem, ?_⟩
    rw [FinMap.get?_insert, if_neg other]
    exact gone
  · intro before f' after eq
    rcases snoc_eq_append eq with ⟨rfl, ⟨⟩⟩ | ⟨after', eq⟩
    · exact waits.takeover fresh covered (.inl rfl) fun g since => .inr since
    · exact (waits.flushed before f' after' eq).mono
        (fun g bs waiting => ⟨waits.insert fresh _ bs waiting, fun _ _ => rfl⟩) fun _ => id
  · intro mem
    have mem : .retire handle ∈ taken := by simpa using mem
    rw [events_snoc_flush]
    exact .inr (waits.takeover fresh covered ⟨taken, [], rfl, mem⟩ fun g since => since.snoc _)

/-- What only a flush stood for is done once its barriers are passed. -/
lemma Guarded.erase {bs : List BarrierId} (guarded : Guarded waiting stamp done n kind)
    (found : waiting.get? g = some bs) (reached : ∀ b ∈ bs, stamp b ≤ done.length) :
    Guarded (waiting.erase g) stamp done n kind := by
  rcases guarded with le | ⟨f, cs, found', is, b, mem, behind⟩
  · exact .inl le
  · by_cases eq : f = g
    · subst eq
      obtain rfl := Option.some.inj (found.symm.trans found')
      exact .inl (behind.trans (reached b mem))
    · refine .inr ⟨f, cs, ?_, is, b, mem, behind⟩
      rwa [FinMap.get?_erase, if_neg eq]

/-- A flush whose barriers are passed is resolved. -/
lemma Waits.resolve (waits : d.Waits handle taken done stamp) {bs : List BarrierId}
    (waiting : d.waiting.get? g = some bs) (reached : ∀ b ∈ bs, stamp b ≤ done.length) :
    { d with waiting := d.waiting.erase g, resolved := d.resolved.add g }.Waits handle taken done
      stamp := by
  refine ⟨waits.draining, ?_, ?_, ?_, ?_⟩
  · intro f cs waiting'
    rw [FinMap.get?_erase] at waiting'
    split at waiting'
    case isTrue => cases waiting'
    case isFalse => exact waits.waiting f cs waiting'
  · intro f mem
    rw [FinMap.get?_erase]
    rcases FinSet.mem_add.mp mem with rfl | mem
    · exact ⟨(waits.waiting f bs waiting).1, if_pos rfl⟩
    · obtain ⟨mem, gone⟩ := waits.resolved f mem
      exact ⟨mem, by rw [gone, ite_self]⟩
  · exact fun before f after eq => (waits.flushed before f after eq).erase waiting reached
  · exact fun mem => (waits.retired mem).imp_right (·.erase waiting reached)

/-! ## What the router takes -/

/-- Counters, and what waits for the router, do not matter. -/
lemma Ledger.alike (led : d.Ledger handle taken done stamp)
    (same : d' = { d with
      inbox := d'.inbox
      nextFlush := d'.nextFlush
      delivered := d'.delivered
      dropped := d'.dropped
      drainingCount := d'.drainingCount
      receipts := d'.receipts }) : d'.Ledger handle taken done stamp := by
  rw [same]
  exact ⟨led.running, ⟨led.seats.old, led.seats.owner, led.seats.single, led.seats.opened⟩,
    led.unseen, ⟨led.marks.lanes, led.marks.passed⟩, ⟨led.waits.draining, led.waits.waiting,
    led.waits.resolved, led.waits.flushed, led.waits.retired⟩⟩

/-- A lane moves, and events of its own handle come in or are done. -/
lemma Ledger.lane {taken' : List RouterItem} {passed : FinSet BarrierId}
    (led : d.Ledger handle taken done stamp) (found : d.lanes.get? i = some l)
    (same : l'.handle = l.handle)
    (own : l.handle = handle ∨ events handle taken' = events handle taken ∧ done' = done)
    (stamped : l'.Stamped handle (events handle taken') done' stamp d.nextBarrier)
    (reached : ∀ b ∈ passed, b < d.nextBarrier ∧ stamp b ≤ done'.length)
    (kept : .retire handle ∈ taken → .retire handle ∈ taken')
    (waits : d.Waits handle taken' done' stamp) :
    { d with lanes := d.lanes.insert i l', passed := passed }.Ledger handle taken' done' stamp := by
  have owner := owner?_insert found same
  refine ⟨led.running, ⟨?_, ?_, ?_, ?_⟩, ?_, ⟨?_, reached⟩, ?_⟩
  · intro j k eq
    exact led.seats.old j k ((owner j).symm.trans eq)
  · intro k j active
    exact (owner j).trans (led.seats.owner k j active)
  · intro j k mine mine'
    exact led.seats.single j k ((owner j).symm.trans mine) ((owner k).symm.trans mine')
  · intro j mine
    exact (led.seats.opened j ((owner j).symm.trans mine)).imp_right kept
  · intro none
    have none : ∀ j, d.owner? j ≠ some handle := fun j mine => none j ((owner j).trans mine)
    rcases own with mine | ⟨same, rfl⟩
    · exact absurd (mine ▸ owner?_of_get? found) (none i)
    · rw [same]
      exact led.unseen none
  · exact led.marks.lanes_insert led.seats found own stamped
  · exact ⟨waits.draining, waits.waiting, waits.resolved, waits.flushed, waits.retired⟩

/-- The owners of lanes after one was opened. -/
lemma owner?_openLane (d : Delivery) (k : HandleId) (callback : Callback) (j : LaneId) :
    (d.openLane k callback).2.owner? j = if j = d.nextLane then some k else d.owner? j := by
  rw [owner?, Delivery.openLane]
  dsimp only
  rw [FinMap.get?_insert]
  split <;> rfl

/-- Lanes that are there keep their handles when one is made. -/
lemma Seats.owner?_openLane {retired : Prop} (seats : d.Seats handle retired) {j : LaneId}
    {k k' : HandleId} (callback : Callback) (mine : d.owner? j = some k') :
    (d.openLane k callback).2.owner? j = some k' := by
  rw [Delivery.owner?_openLane, if_neg (seats.old j k' mine).ne, mine]

/-- A lane is made for a handle that has no open one; the handle that is followed had none at all. -/
lemma Seats.openLane {retired : Prop} (seats : d.Seats handle retired) {k : HandleId}
    (callback : Callback) (closed : d.active.get? k = none)
    (first : k = handle → ∀ j, d.owner? j ≠ some handle) :
    (d.openLane k callback).2.Seats handle retired := by
  have active : ∀ k', (d.openLane k callback).2.active.get? k' =
      if k' = k then some d.nextLane else d.active.get? k' :=
    fun k' => FinMap.get?_insert ..
  refine ⟨?_, ?_, ?_, ?_⟩
  · intro j k' eq
    rw [Delivery.owner?_openLane] at eq
    split at eq
    case isTrue this => exact this ▸ Nat.lt_succ_self _
    case isFalse => exact (seats.old j k' eq).trans (Nat.lt_succ_self _)
  · intro k' j eq
    rw [active] at eq
    split at eq
    case isTrue this =>
      obtain rfl := Option.some.inj eq
      rw [Delivery.owner?_openLane, if_pos rfl, this]
    case isFalse => exact seats.owner?_openLane callback (seats.owner k' j eq)
  · intro j j' mine mine'
    rw [Delivery.owner?_openLane] at mine mine'
    split at mine <;> split at mine'
    case isTrue.isTrue eq eq' => exact eq.trans eq'.symm
    case isTrue.isFalse => exact absurd mine' (first (Option.some.inj mine) j')
    case isFalse.isTrue => exact absurd mine (first (Option.some.inj mine') j)
    case isFalse.isFalse => exact seats.single j j' mine mine'
  · intro j mine
    rw [active]
    rw [Delivery.owner?_openLane] at mine
    split at mine
    case isTrue eq => exact .inl (by rw [if_pos (Option.some.inj mine).symm, eq])
    case isFalse =>
      refine (seats.opened j mine).imp_left fun found => ?_
      rw [if_neg, found]
      rintro rfl
      exact nomatch closed.symm.trans found

/-- A lane is made for a handle that is not retired. -/
lemma Ledger.openLane (led : d.Ledger handle taken done stamp) {k : HandleId} (callback : Callback)
    (closed : d.active.get? k = none) (before : .retire k ∉ taken) :
    (d.openLane k callback).2.Ledger handle taken done stamp := by
  have first : k = handle → ∀ j, d.owner? j ≠ some handle := by
    rintro rfl j mine
    rcases led.seats.opened j mine with active | retired
    · exact nomatch closed.symm.trans active
    · exact before retired
  have waits := led.waits
  refine ⟨led.running, led.seats.openLane callback closed first, ?_, ⟨?_, led.marks.passed⟩,
    ⟨waits.draining, waits.waiting, waits.resolved, waits.flushed, waits.retired⟩⟩
  · exact fun none => led.unseen fun j mine => none j (led.seats.owner?_openLane callback mine)
  · intro j m found
    rw [Delivery.openLane] at found
    dsimp only at found
    rw [FinMap.get?_insert] at found
    split at found
    case isTrue =>
      obtain rfl := Option.some.inj found
      refine ⟨nofun, fun _ => nofun, fun _ => nofun, fun mine => ?_, fun _ => nofun⟩
      obtain ⟨none, nil⟩ := led.unseen (first mine)
      rw [none, nil]
      rfl
    case isFalse => exact led.marks.lanes j m found

/-- An event that is taken comes last. -/
lemma events_snoc_deliver (e : Event) (callback : Callback) :
    events handle (taken ++ [.deliver e callback]) = events handle taken ++ e.to handle := by
  simp [events]

/-- An event goes to the lane of its handle. A dead lane drops it; the lane of the handle that is
followed is not dead. -/
lemma Ledger.push (led : d.Ledger handle taken done stamp) {e : Event} (callback : Callback)
    (before : .retire e.handle ∉ taken) (owner : d.owner? i = some e.handle) :
    let d' := (d.push? i (.event e.notification)).getD { d with dropped := d.dropped + 1 }
    d'.Ledger handle (taken ++ [RouterItem.deliver e callback]) done stamp ∧ d.SameCalls d' := by
  have waits := led.waits.deliver callback before
  have kept : .retire handle ∈ taken → .retire handle ∈ taken ++ [RouterItem.deliver e callback] :=
    List.mem_append_left _
  obtain ⟨l, found, same⟩ := Option.map_eq_some_iff.mp owner
  have stamped := led.marks.lanes i l found
  rcases d.push?_cases i (.event e.notification) with ⟨refused, dead⟩ | ⟨l', found', -, pushed⟩
  · have other : e.handle ≠ handle := by
      rw [← same]
      exact fun own => stamped.alive own (dead l found)
    have none := Event.to_of_ne other
    rw [refused]
    refine ⟨Ledger.alike (d := d) ⟨led.running, ⟨led.seats.old, led.seats.owner, led.seats.single,
      fun j mine => (led.seats.opened j mine).imp_right kept⟩, ?_, ?_, waits⟩ rfl, rfl, rfl⟩
    · rw [events_snoc_deliver, none, List.append_nil]
      exact led.unseen
    · rw [events_snoc_deliver, none, List.append_nil]
      exact led.marks
  · obtain rfl := Option.some.inj (found.symm.trans found')
    rw [pushed]
    refine ⟨led.lane found rfl ?_ ?_ led.marks.passed kept waits, rfl, rfl⟩
    · refine (em (l.handle = handle)).imp_right fun other => ⟨?_, rfl⟩
      rw [events_snoc_deliver, Event.to_of_ne (same ▸ other), List.append_nil]
    · rw [events_snoc_deliver]
      exact stamped.push_event same.symm

/-- An event is taken and queued. -/
lemma Ledger.deliver (led : d.Ledger handle taken done stamp) {e : Event} {callback : Callback}
    (before : .retire e.handle ∉ taken) :
    (d.routeDeliver e callback).Ledger handle (taken ++ [RouterItem.deliver e callback]) done
      stamp ∧ d.SameCalls (d.routeDeliver e callback) := by
  rw [routeDeliver, laneOf]
  cases found : d.active.get? e.handle with
  | some i => exact led.push callback before (led.seats.owner _ i found)
  | none =>
    refine (led.openLane callback found before).push callback before ?_
    exact (owner?_openLane ..).trans (if_pos rfl)

/-- Barriers that are passed need not be kept track of. -/
lemma Ledger.prune (led : d.Ledger handle taken done stamp) :
    { d with draining := d.draining.filter (· ∉ d.passed) }.Ledger handle taken done stamp := by
  have waits := led.waits
  refine ⟨led.running, ⟨led.seats.old, led.seats.owner, led.seats.single, led.seats.opened⟩,
    led.unseen, ⟨led.marks.lanes, led.marks.passed⟩,
    ⟨?_, waits.waiting, waits.resolved, waits.flushed, ?_⟩⟩
  · exact fun b mem => waits.draining b (List.mem_filter.mp mem).1
  · intro mem
    rcases waits.retired mem with ⟨b, mem, behind⟩ | guarded
    · by_cases passed : b ∈ d.passed
      · exact .inr (.inl (behind.trans (led.marks.passed b passed).2))
      · exact .inl ⟨b, List.mem_filter.mpr ⟨mem, by simpa using passed⟩, behind⟩
    · exact .inr guarded

/-- Where barriers have been put into all open lanes of a handle, its events are covered. -/
lemma Ledger.covered {active : FinMap HandleId LaneId} (led : d.Ledger handle taken done stamp)
    (put : { d with active := active }.Barred handle (events handle taken) done stamp targets more
      d' stamp') (all : ∀ i, d.active.get? handle = some i → i ∈ targets) :
    Covered handle taken stamp' more := by
  by_cases own : ∃ i, d.owner? i = some handle
  · obtain ⟨i, own⟩ := own
    rcases led.seats.opened i own with active | retired
    · obtain ⟨b, mem, eq⟩ := put.covers i (all i active) own
      exact .inl ⟨b, mem, eq.ge⟩
    · exact .inr (.inl retired)
  · exact .inr (.inr (led.unseen fun i eq => own ⟨i, eq⟩).1)

/-- Barriers hand nothing to the router. -/
lemma Barred.sameCalls {seen : List Notification}
    (put : d.Barred handle seen done stamp targets more d' stamp') : d.SameCalls d' := by
  rw [put.rest]
  exact ⟨rfl, rfl⟩

/-- Barriers do not move lanes. -/
lemma Seats.barred {retired : Prop} {seen : List Notification} (seats : d.Seats handle retired)
    (put : d.Barred handle seen done stamp targets more d' stamp') : d'.Seats handle retired := by
  have next : d'.nextLane = d.nextLane := by rw [put.rest]
  have active : d'.active = d.active := by rw [put.rest]
  refine ⟨?_, ?_, ?_, ?_⟩
  · intro i k eq
    exact (seats.old i k ((put.owner i).symm.trans eq)).trans_eq next.symm
  · intro k i eq
    exact (put.owner i).trans (seats.owner k i (active ▸ eq))
  · intro i j mine mine'
    exact seats.single i j ((put.owner i).symm.trans mine) ((put.owner j).symm.trans mine')
  · intro i mine
    rw [active]
    exact seats.opened i ((put.owner i).symm.trans mine)

/-- A handle is retired: its lane is closed, behind a barrier if it had one. -/
lemma Ledger.close {h : HandleId} (led : d.Ledger handle taken done stamp)
    (put : { d with active := d.active.erase h }.Barred handle (events handle taken) done stamp
      targets more d' stamp') (all : ∀ i, d.active.get? h = some i → i ∈ targets) :
    { d' with draining := d'.draining ++ more }.Ledger handle (taken ++ [RouterItem.retire h]) done
      stamp' := by
  have router : d'.router = d.router := by rw [put.rest]
  have next : d'.nextLane = d.nextLane := by rw [put.rest]
  have active : d'.active = d.active.erase h := by rw [put.rest]
  have old := led.waits
  have closed : { d with active := d.active.erase h }.Waits handle taken done stamp :=
    ⟨old.draining, old.waiting, old.resolved, old.flushed, old.retired⟩
  have waits : d'.Waits handle taken done stamp' := closed.barred put
  have marks := put.marks
  rw [← events_snoc_retire h] at marks
  refine ⟨router.trans led.running, ⟨?_, ?_, ?_, ?_⟩, ?_, ⟨marks.lanes, marks.passed⟩, ?_⟩
  · intro i k eq
    exact (led.seats.old i k ((put.owner i).symm.trans eq)).trans_eq next.symm
  · intro k i eq
    rw [active, FinMap.get?_erase] at eq
    split at eq
    case isTrue => cases eq
    case isFalse => exact (put.owner i).trans (led.seats.owner k i eq)
  · intro i j mine mine'
    exact led.seats.single i j ((put.owner i).symm.trans mine) ((put.owner j).symm.trans mine')
  · intro i mine
    rw [active, FinMap.get?_erase]
    by_cases this : handle = h
    · exact .inr (this ▸ List.mem_append_right _ (List.mem_singleton_self _))
    · rw [if_neg this]
      exact (led.seats.opened i ((put.owner i).symm.trans mine)).imp_right (List.mem_append_left _)
  · intro none
    rw [events_snoc_retire]
    exact led.unseen fun i mine => none i ((put.owner i).trans mine)
  · refine waits.retire h put.fresh ?_
    rintro rfl
    exact led.covered put all

/-- A retirement is taken, and a barrier is put behind the events of the handle. -/
lemma Ledger.retire (led : d.Ledger handle taken done stamp) (h : HandleId) :
    ∃ stamp', (d.routeRetire h).Ledger handle (taken ++ [RouterItem.retire h]) done stamp' ∧
      d.SameCalls (d.routeRetire h) := by
  let d₁ : Delivery := { d with draining := d.draining.filter (· ∉ d.passed) }
  have pruned : d₁.Ledger handle taken done stamp := led.prune
  have marks : { d₁ with active := d₁.active.erase h }.Marks handle (events handle taken) done
      stamp :=
    ⟨pruned.marks.lanes, pruned.marks.passed⟩
  cases found : d.active.get? h with
  | none =>
    have same : d₁.active.erase h = d₁.active := FinMap.erase_eq_self found
    have closed := pruned.close (.refl marks) fun i eq => nomatch found.symm.trans eq
    rw [routeRetire]
    dsimp only
    rw [found]
    refine ⟨stamp, closed.alike ?_, rfl, rfl⟩
    simp only [same, List.append_nil]
    rfl
  | some i =>
    obtain ⟨stamp', put⟩ := marks.pushBarrier i
    have closed := pruned.close put fun j eq => by
      rw [List.mem_singleton]
      exact Option.some.inj (eq.symm.trans found)
    rw [routeRetire]
    dsimp only
    rw [found]
    exact ⟨stamp', closed.alike rfl, put.sameCalls⟩

/-- A flush waits for the barriers it has put into the open lanes. -/
lemma Ledger.await (led : d.Ledger handle taken done stamp) (fresh : .flush f ∉ taken)
    (put : d.Barred handle (events handle taken) done stamp targets more d' stamp')
    (all : ∀ i, d.active.get? handle = some i → i ∈ targets) :
    { d' with waiting := d'.waiting.insert f (d'.draining ++ more), draining := [] }.Ledger handle
      (taken ++ [RouterItem.flush f]) done stamp' := by
  have router : d'.router = d.router := by rw [put.rest]
  have seats := led.seats.barred put
  have marks := put.marks
  rw [← events_snoc_flush (f := f)] at marks
  refine ⟨router.trans led.running, ⟨seats.old, seats.owner, seats.single, ?_⟩, ?_,
    ⟨marks.lanes, marks.passed⟩, (led.waits.barred put).flush fresh put.fresh (led.covered put all)⟩
  · exact fun i mine => (seats.opened i mine).imp_right (List.mem_append_left _)
  · rw [events_snoc_flush]
    exact fun none => led.unseen fun i mine => none i ((put.owner i).trans mine)

/-- A flush is taken and waits for barriers in all lanes it is about. -/
lemma Ledger.flush (led : d.Ledger handle taken done stamp) (fresh : .flush f ∉ taken) :
    ∃ stamp', (d.routeFlush f).Ledger handle (taken ++ [RouterItem.flush f]) done stamp' ∧
      d.SameCalls (d.routeFlush f) := by
  obtain ⟨stamp', put⟩ := led.marks.pushBarriers (d.active.toList.map Prod.snd)
  have all : ∀ i, d.active.get? handle = some i → i ∈ d.active.toList.map Prod.snd :=
    fun i found => List.mem_map_of_mem (FinMap.get?_eq_some.mp found)
  exact ⟨stamp', (led.await fresh put all).alike rfl, put.sameCalls⟩

/-- The router takes an item. -/
lemma Ledger.take (led : d.Ledger handle taken done stamp)
    (arrival : ∀ e callback, item = .deliver e callback → .retire e.handle ∉ taken)
    (numbered : ∀ f, item = .flush f → .flush f ∉ taken) :
    ∃ stamp', (d.take item).Ledger handle (taken ++ [item]) done stamp' ∧
      d.SameCalls (d.take item) := by
  cases item with
  | deliver e callback => exact ⟨stamp, led.deliver (arrival e callback rfl)⟩
  | retire h => exact led.retire h
  | flush f => exact led.flush (numbered f rfl)

/-! ## What lanes do -/

/-- A call to a callback finishes no event. -/
lemma Ledger.begin (led : d.Ledger handle taken done stamp) (begun : d.begin? i = some d') :
    d'.Ledger handle taken done stamp ∧ d.SameCalls d' := by
  obtain ⟨l, found, begun⟩ := Option.bind_eq_some_iff.mp begun
  split at begun
  case h_1 n rest idle queue =>
    obtain rfl := Option.some.inj begun
    have stamped := (led.marks.lanes i l found).begin idle queue
    exact ⟨led.lane found rfl (.inr ⟨rfl, rfl⟩) stamped led.marks.passed id led.waits, rfl, rfl⟩
  case h_2 => cases begun

/-- A barrier that is passed has all its events behind it. -/
lemma Ledger.pass (led : d.Ledger handle taken done stamp) (passed : d.pass? i = some d') :
    d'.Ledger handle taken done stamp ∧ d.SameCalls d' := by
  obtain ⟨l, found, passed⟩ := Option.bind_eq_some_iff.mp passed
  split at passed
  case h_1 b rest idle queue =>
    obtain rfl := Option.some.inj passed
    have old := (led.marks.lanes i l found).old b (by simp [queue])
    obtain ⟨stamped, reached⟩ := (led.marks.lanes i l found).pass idle queue
    refine ⟨led.lane found rfl (.inr ⟨rfl, rfl⟩) stamped ?_ id led.waits, rfl, rfl⟩
    intro c mem
    rcases FinSet.mem_add.mp mem with rfl | mem
    · exact ⟨old, reached⟩
    · exact led.marks.passed c mem
  case h_2 => cases passed

/-- A callback returns, and the event is done. -/
lemma Ledger.returned (led : d.Ledger handle taken done stamp) (found : d.lanes.get? i = some l)
    {n : Notification} (busy : l.state = .busy n) :
    { d with lanes := d.lanes.insert i { l with state := .idle } }.Ledger handle taken
      (done ++ if l.handle = handle then [n] else []) stamp := by
  have le : done.length ≤ (done ++ if l.handle = handle then [n] else []).length := by
    rw [List.length_append]
    exact Nat.le_add_right ..
  refine led.lane found rfl ?_ ((led.marks.lanes i l found).finish busy) ?_ id (led.waits.grow le)
  · refine (em (l.handle = handle)).imp_right fun other => ⟨rfl, ?_⟩
    rw [if_neg other, List.append_nil]
  · intro b mem
    obtain ⟨old, reached⟩ := led.marks.passed b mem
    exact ⟨old, reached.trans le⟩

/-- A lane of another handle dies, and its barriers with it. -/
lemma Ledger.died (led : d.Ledger handle taken done stamp) (found : d.lanes.get? i = some l)
    (other : l.handle ≠ handle) {bs : List BarrierId} (queued : ∀ b ∈ bs, .barrier b ∈ l.queue) :
    { d with
      lanes := d.lanes.insert i { l with state := .dead, queue := [] }
      passed := bs.foldl FinSet.add d.passed }.Ledger handle taken done stamp := by
  have stamped := led.marks.lanes i l found
  refine led.lane found rfl (.inr ⟨rfl, rfl⟩) (Lane.stamped_dead other) ?_ id led.waits
  intro b mem
  rcases (FinSet.mem_foldl_add bs).mp mem with mem | mem
  · refine ⟨stamped.old b (queued b mem), ?_⟩
    rw [stamped.foreign other b (queued b mem)]
    exact Nat.zero_le _
  · exact led.marks.passed b mem

/-- A callback ends. It may die only if it is not the handle's that is followed. -/
lemma Ledger.finish {ending : Ending} (led : d.Ledger handle taken done stamp)
    (finished : d.finish? i ending = some d')
    (survived : ∀ e ∈ d.ending? handle (.finish i ending), e.2 ≠ .died) :
    d'.Ledger handle taken
      (done ++ (d.ending? handle (.finish i ending)).toList.map Prod.fst) stamp ∧
    d.SameCalls d' := by
  obtain ⟨l, found, finished⟩ := Option.bind_eq_some_iff.mp finished
  have ended : ∀ n, l.state = .busy n → d.ending? handle (.finish i ending) =
      if l.handle = handle then some (n, ending) else none := by
    intro n busy
    simp [ending?, found, busy]
  have dealt : ∀ n, l.state = .busy n →
      ((d.ending? handle (.finish i ending)).toList.map Prod.fst) =
        if l.handle = handle then [n] else [] := by
    intro n busy
    rw [ended n busy]
    split <;> rfl
  split at finished
  case h_1 n busy _ =>
    obtain rfl := Option.some.inj finished
    rw [dealt n busy]
    exact ⟨(led.returned found busy).alike rfl, rfl, rfl⟩
  case h_2 n busy _ =>
    obtain rfl := Option.some.inj finished
    rw [dealt n busy]
    exact ⟨(led.returned found busy).alike rfl, rfl, rfl⟩
  case h_3 n busy _ =>
    obtain rfl := Option.some.inj finished
    have other : l.handle ≠ handle := by
      intro own
      rw [ended n busy, if_pos own] at survived
      exact survived _ rfl rfl
    rw [dealt n busy, if_neg other, List.append_nil]
    refine ⟨led.died found other ?_, rfl, rfl⟩
    intro b mem
    obtain ⟨item, mem, eq⟩ := List.mem_filterMap.mp mem
    cases item <;> simp_all
  case h_4 => cases finished

/-- A flush is resolved when it waits for nothing. -/
lemma Ledger.resolve (led : d.Ledger handle taken done stamp) (resolved : d.resolve? g = some d') :
    d'.Ledger handle taken done stamp ∧ d.SameCalls d' := by
  obtain ⟨bs, waiting, resolved⟩ := Option.bind_eq_some_iff.mp resolved
  split at resolved
  case isTrue all =>
    obtain rfl := Option.some.inj resolved
    have reached : ∀ b ∈ bs, stamp b ≤ done.length := by
      intro b mem
      have passed := List.all_eq_true.mp all b mem
      exact (led.marks.passed b (of_decide_eq_true passed)).2
    have waits := led.waits.resolve waiting reached
    exact ⟨⟨led.running, ⟨led.seats.old, led.seats.owner, led.seats.single, led.seats.opened⟩,
      led.unseen, ⟨led.marks.lanes, led.marks.passed⟩, waits⟩, rfl, rfl⟩
  case isFalse => cases resolved

end Delivery

end Coordination
