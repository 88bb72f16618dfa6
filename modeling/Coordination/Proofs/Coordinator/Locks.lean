import Coordination.Proofs.Coordinator.Invariant

/-!
# Locks and the invariant

A handle that gives up its lock leaves a lock whose waiters are to be served; serving them, with a
note for each, makes the tables tidy again. A request that is met keeps them sound.
-/

namespace Coordination

variable {s s' : State} {id above node : NodeId} {handle : HandleId} {session : SessionId}
variable {dying : Set SessionId} {loose : Set NodeId} {mode : LockMode}

namespace State

/-- Links survive a change of one lock after which nobody asks for it who did not before. -/
lemma Linked.modify_lock (linked : s.Linked) (node : NodeId) {f : LockState → LockState}
    (free : f .free = .free) (keeps : ∀ l : LockState, l.Consistent → (f l).Consistent)
    (asked : ∀ l : LockState, l.Consistent → ∀ w ∈ (f l).requests, w ∈ l.requests) :
    { s with locks := s.locks.modify node f }.Linked := by
  refine { linked with node_of_lock := ?_, handle_of_request := ?_, consistent := ?_ }
  · intro id l found
    obtain ⟨l', found', -⟩ := FinMap.get?_modify_eq_some.mp found
    exact linked.node_of_lock id l' found'
  · intro id w mem
    rw [LockTable.lock_modify free] at mem
    split at mem
    case isTrue eq =>
      have old := asked _ (linked.consistent.lock node) w mem
      exact eq ▸ linked.handle_of_request node w old
    case isFalse => exact linked.handle_of_request id w mem
  · exact linked.consistent.modify keeps

/-! ## Handles that leave -/

/-- A handle leaves a lock, whose waiters are then to be served. -/
lemma Linked.strip (linked : s.Linked) (node : NodeId) (handle : HandleId) :
    (s.strip node handle).Linked := by
  refine linked.modify_lock node rfl (fun l c => c.without _) fun l _ w mem => ?_
  rw [LockState.requests_without] at mem
  exact List.mem_of_mem_filter mem

/-- A handle that does not hold the lock, or does so for a session that ends, leaves it without a
note. -/
lemma Tidy.strip (tidy : s.Tidy dying loose)
    (ends : ∀ i, ⟨i, handle⟩ ∈ (s.locks.lock node).holders → i ∈ dying) :
    (s.strip node handle).Tidy dying (insert node loose) := by
  refine ⟨tidy.live, ?_, ?_⟩
  · intro id out
    obtain ⟨ne, out⟩ := not_or.mp (Set.mem_insert_iff.not.mp out)
    simp only [State.strip, LockTable.lock_strip, if_neg ne]
    exact tidy.settled id out
  · intro id x node' h foundX alive
    rw [tidy.noted id x node' h foundX alive]
    simp only [State.strip, LockTable.lock_strip]
    split
    case isTrue eq =>
      subst eq
      rw [LockState.without_holders, List.mem_filter]
      refine ⟨fun mem => ⟨mem, ?_⟩, And.left⟩
      -- a holder whose session goes on is not the handle that leaves
      by_contra same
      obtain rfl : h = handle := by simpa using same
      exact alive (ends id mem)
    case isFalse => rfl

/-- A handle of a live session releases its lock, and the note of it is struck out. -/
lemma Tidy.release (tidy : s.Tidy dying loose) (linked : s.Linked) {r : Handle}
    (found : s.handles.get? handle = some r) :
    ((s.strip r.node handle).noteReleased r.session ⟨r.node, handle⟩).Tidy dying
      (insert r.node loose) := by
  have notes : ∀ i x', ((s.strip r.node handle).noteReleased r.session ⟨r.node, handle⟩).sessions.get? i
      = some x' → ∃ x, s.sessions.get? i = some x ∧ x'.isLive = x.isLive ∧
        ∀ lk, lk ∈ x'.locks ↔ lk ∈ x.locks ∧ ¬ (i = r.session ∧ lk = ⟨r.node, handle⟩) := by
    intro i x' found'
    obtain ⟨x, foundX, rfl⟩ := FinMap.get?_modify_eq_some.mp found'
    refine ⟨x, foundX, ?_⟩
    split
    case isTrue eq =>
      refine ⟨rfl, fun lk => ?_⟩
      rw [FinSet.mem_erase]
      simp [eq, and_comm]
    case isFalse ne => exact ⟨rfl, fun lk => by simp [ne]⟩
  refine ⟨?_, ?_, ?_⟩
  · intro i x' found' alive
    obtain ⟨x, foundX, live, -⟩ := notes i x' found'
    rw [live]
    exact tidy.live i x foundX alive
  · intro id out
    obtain ⟨ne, out⟩ := not_or.mp (Set.mem_insert_iff.not.mp out)
    simp only [noteReleased, State.strip, LockTable.lock_strip, if_neg ne]
    exact tidy.settled id out
  · intro i x' node' h found' alive
    obtain ⟨x, foundX, -, locks⟩ := notes i x' found'
    rw [locks, tidy.noted i x node' h foundX alive]
    simp only [noteReleased, State.strip, LockTable.lock_strip]
    -- the owner and the node of a holder are those of its handle
    have owner : ∀ j k, ⟨j, handle⟩ ∈ (s.locks.lock k).holders → j = r.session ∧ k = r.node := by
      intro j k mem
      have origin := linked.origin_of_holder found mem
      exact ⟨origin.1.symm, origin.2.symm⟩
    split
    case isTrue eq =>
      subst eq
      rw [LockState.without_holders, List.mem_filter]
      refine and_congr_right fun mem => ?_
      have := owner i r.node
      grind
    case isFalse ne =>
      refine ⟨And.left, fun mem => ⟨mem, ?_⟩⟩
      rintro ⟨-, eq⟩
      exact ne (congrArg HeldLock.node eq)

/-- Striking out a note keeps the tables linked. -/
lemma Linked.noteReleased (linked : s.Linked) (session : SessionId) (lock : HeldLock) :
    (s.noteReleased session lock).Linked :=
  linked.with_sessions (.modify _ fun _ => rfl)

/-! ## Service -/

end State

namespace SessionTable

/-- Notes for waiters that became holders of a lock. -/
def noteAll (t : SessionTable) (node : NodeId) (served : List Waiter) : SessionTable :=
  served.foldl (fun t w => t.modify w.session fun x =>
    { x with locks := x.locks.add ⟨node, w.handle⟩ }) t

variable {t : SessionTable} {served : List Waiter} {i : SessionId} {x' : Session}

/-- The sessions after a lock was noted for one. -/
lemma get?_note {session : SessionId} {lock : HeldLock}
    (found' : (t.modify session fun x => { x with locks := x.locks.add lock }).get? i = some x') :
    ∃ x, t.get? i = some x ∧ x'.isLive = x.isLive ∧
      ∀ lk, lk ∈ x'.locks ↔ lk ∈ x.locks ∨ i = session ∧ lk = lock := by
  obtain ⟨x, foundX, rfl⟩ := FinMap.get?_modify_eq_some.mp found'
  refine ⟨x, foundX, ?_⟩
  split
  case isTrue eq =>
    refine ⟨rfl, fun lk => ?_⟩
    rw [FinSet.mem_add]
    simp [eq, or_comm]
  case isFalse ne => exact ⟨rfl, fun lk => by simp [ne]⟩

/-- The sessions after the locks of those served were noted. -/
lemma get?_noteAll (found' : (t.noteAll node served).get? i = some x') :
    ∃ x, t.get? i = some x ∧ x'.isLive = x.isLive ∧ ∀ k h, ⟨k, h⟩ ∈ x'.locks ↔
      ⟨k, h⟩ ∈ x.locks ∨ k = node ∧ ⟨i, h⟩ ∈ served.map Waiter.holder := by
  induction served generalizing t with
  | nil => exact ⟨x', found', rfl, fun k h => by simp⟩
  | cons w rest ih =>
    obtain ⟨x₁, found₁, live₁, locks₁⟩ := ih found'
    obtain ⟨x, found, live, locks⟩ := get?_note found₁
    refine ⟨x, found, live₁.trans live, fun k h => ?_⟩
    rw [locks₁, locks]
    simp only [List.map_cons, List.mem_cons, Waiter.holder, Holder.mk.injEq, HeldLock.mk.injEq]
    tauto

/-- Notes change no handles. -/
lemma sameOwners_noteAll : State.SameOwners t (t.noteAll node served) := by
  induction served generalizing t with
  | nil => exact .refl t
  | cons w rest ih =>
    have first : State.SameOwners t (t.modify w.session fun x =>
        { x with locks := x.locks.add ⟨node, w.handle⟩ }) := .modify t fun _ => rfl
    exact first.trans ih

/-- Notes do not change the state of a session. -/
lemma state_noteAll {i : SessionId} {x x' : Session} (found : t.get? i = some x)
    (found' : (t.noteAll node served).get? i = some x') : x'.state = x.state := by
  induction served generalizing t x with
  | nil => rw [Option.some.inj (found.symm.trans found')]
  | cons w rest ih =>
    have look : (t.modify w.session fun x =>
        { x with locks := x.locks.add ⟨node, w.handle⟩ }).get? i = _ := get?_modify _ i
    rw [found] at look
    split at look
    case isTrue =>
      rw [Option.map_some] at look
      exact (ih look found' :)
    case isFalse => exact ih look found'

end SessionTable

namespace State

/-- Serving a node changes its lock and the notes about it. -/
lemma sameTables_promote (node : NodeId) : SameTables
    { s with
      locks := s.locks.modify node (·.promote.2)
      sessions := s.sessions.noteAll node (s.locks.lock node).promote.1 } (s.promote node) := by
  have fold : ∀ (served : List Waiter) (s' : State),
      SameTables { s' with sessions := s'.sessions.noteAll node served }
        ((served.map (Grant.mk node)).foldl welcome s') := by
    intro served
    induction served with
    | nil => exact fun s' => .refl s'
    | cons w rest ih =>
      intro s'
      have same : SameTables (s'.noteHeld w.session ⟨node, w.handle⟩)
        (s'.welcome ⟨node, w⟩) := sameTables_tell ..
      refine SameTables.trans ?_ (ih (s'.welcome ⟨node, w⟩))
      refine ⟨same.tree, same.locks, ?_, same.handles, same.store⟩
      exact congrArg (·.noteAll node rest) same.sessions
  rw [promote, LockTable.promote_eq]
  exact fold (s.locks.lock node).promote.1 { s with locks := s.locks.modify node (·.promote.2) }

/-- Serving waiters keeps the tables linked. -/
lemma Linked.promote (linked : s.Linked) (node : NodeId) : (s.promote node).Linked := by
  refine Linked.of_sameTables ?_ (s.sameTables_promote node)
  have locks : { s with locks := s.locks.modify node (·.promote.2) }.Linked := by
    refine linked.modify_lock node rfl (fun l c => c.promote.1) fun l c w mem => ?_
    rwa [c.promote.2] at mem
  exact locks.with_sessions SessionTable.sameOwners_noteAll

/-- Once a lock is served it is settled, and its new holders are noted. -/
lemma Tidy.promote (tidy : s.Tidy dying loose) (node : NodeId) :
    (s.promote node).Tidy dying (loose \ {node}) := by
  refine Tidy.of_sameTables ?_ (s.sameTables_promote node)
  have lock : ∀ id, LockTable.lock (s.locks.modify node (·.promote.2)) id =
      if id = node then (s.locks.lock node).promote.2 else s.locks.lock id := by
    intro id
    have := LockTable.lock_promote s.locks node id
    rwa [LockTable.promote_eq] at this
  refine ⟨?_, ?_, ?_⟩
  · intro i x' found' alive
    obtain ⟨x, found, live, -⟩ := SessionTable.get?_noteAll found'
    rw [live]
    exact tidy.live i x found alive
  · intro id out
    rw [lock]
    split
    case isTrue => exact LockState.settled_promote
    case isFalse ne => exact tidy.settled id fun mem => out ⟨mem, ne⟩
  · intro i x' k h found' alive
    obtain ⟨x, found, -, locks⟩ := SessionTable.get?_noteAll found'
    rw [locks, tidy.noted i x k h found alive, lock]
    split
    case isTrue eq =>
      subst eq
      have parts := (LockState.serve_parts (l := s.locks.lock k) (s.locks.lock k).waiters).1
      rw [LockState.promote, parts, List.mem_append]
      simp
    case isFalse ne => simp [ne]

/-! ## Requests -/

/-- A request of an open handle enters the lock of its node. -/
lemma Linked.with_lock (linked : s.Linked) {r : Handle} {l : LockState}
    (found : s.handles.get? handle = some r) (c : l.Consistent)
    (joins : l.requests = (s.locks.lock r.node).requests ++ [⟨r.session, handle, mode⟩]) :
    { s with locks := s.locks.insert r.node l }.Linked := by
  have lock : ∀ id, LockTable.lock (s.locks.insert r.node l) id =
      if id = r.node then l else s.locks.lock id := LockTable.lock_insert l
  refine { linked with node_of_lock := ?_, handle_of_request := ?_, consistent := ?_ }
  · intro id l' foundL
    rw [FinMap.get?_insert] at foundL
    split at foundL
    case isTrue eq =>
      obtain ⟨n, node, -⟩ := linked.node_of_handle handle r found
      exact ⟨n, eq ▸ node⟩
    case isFalse => exact linked.node_of_lock id l' foundL
  · intro id w mem
    rw [lock] at mem
    split at mem
    case isTrue eq =>
      subst eq
      rw [joins, List.mem_append, List.mem_singleton] at mem
      rcases mem with mem | rfl
      · exact linked.handle_of_request r.node w mem
      · exact ⟨r, found, rfl, rfl⟩
    case isFalse => exact linked.handle_of_request id w mem
  · intro id l' foundL
    rw [FinMap.get?_insert] at foundL
    split at foundL
    case isTrue => exact Option.some.inj foundL ▸ c
    case isFalse => exact linked.consistent id l' foundL

/-- A request granted on the spot. -/
lemma Sound.grant (sound : s.Sound) {r : Handle} (found : s.handles.get? handle = some r)
    (asks : mode ≠ .none) (fresh : (s.locks.lock r.node).involves handle = false)
    (admitted : (s.locks.lock r.node).admits mode = true) :
    ({ s with locks := s.locks.insert r.node ((s.locks.lock r.node).grant ⟨r.session, handle⟩ mode) }.noteHeld
      r.session ⟨r.node, handle⟩).Sound := by
  obtain ⟨linked, tidy⟩ := sound
  have settled := tidy.settled r.node (Set.notMem_empty _)
  have consistent := linked.consistent.lock r.node
  obtain ⟨c, settled'⟩ := consistent.grant settled ⟨r.session, handle⟩ asks fresh admitted
  have joins := consistent.requests_grant settled ⟨r.session, handle⟩ admitted
  refine ⟨(linked.with_lock found c joins).with_sessions (.modify _ fun _ => rfl), ?_⟩
  have lock : ∀ id, LockTable.lock (s.locks.insert r.node
      ((s.locks.lock r.node).grant ⟨r.session, handle⟩ mode)) id =
      if id = r.node then (s.locks.lock r.node).grant ⟨r.session, handle⟩ mode
      else s.locks.lock id := LockTable.lock_insert _
  refine ⟨?_, ?_, ?_⟩
  · intro i x' found' alive
    obtain ⟨x, foundX, live, -⟩ := SessionTable.get?_note found'
    rw [live]
    exact tidy.live i x foundX alive
  · intro id out
    simp only [noteHeld, lock]
    split
    case isTrue => exact settled'
    case isFalse => exact tidy.settled id out
  · intro i x' k h found' alive
    obtain ⟨x, foundX, -, locks⟩ := SessionTable.get?_note found'
    rw [locks, tidy.noted i x k h foundX alive]
    simp only [noteHeld, lock]
    split
    case isTrue eq =>
      subst eq
      simp [LockState.grant]
    case isFalse ne => simp [ne]

/-- A request that waits its turn. -/
lemma Sound.queue (sound : s.Sound) {r : Handle} (found : s.handles.get? handle = some r)
    (asks : mode ≠ .none) (fresh : (s.locks.lock r.node).involves handle = false)
    (refused : (s.locks.lock r.node).admits mode = false) :
    { s with
      locks := s.locks.insert r.node ((s.locks.lock r.node).queue ⟨r.session, handle, mode⟩) }.Sound := by
  obtain ⟨linked, tidy⟩ := sound
  have settled := tidy.settled r.node (Set.notMem_empty _)
  have consistent := linked.consistent.lock r.node
  obtain ⟨c, settled'⟩ := consistent.queue settled ⟨r.session, handle, mode⟩ asks fresh refused
  refine ⟨linked.with_lock found c (LockState.requests_queue _), tidy.live, ?_, ?_⟩
  · intro id out
    rw [LockTable.lock_insert]
    split
    case isTrue => exact settled'
    case isFalse => exact tidy.settled id out
  · intro i x k h foundX alive
    rw [tidy.noted i x k h foundX alive, LockTable.lock_insert]
    split
    case isTrue eq =>
      subst eq
      rfl
    case isFalse => rfl

end State

end Coordination
