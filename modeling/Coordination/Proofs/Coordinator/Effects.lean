import Coordination.Proofs.Coordinator.Primitives

/-!
# What operations leave

The tables as the longer operations leave them, composed from the stages, and the proofs that they
are sound: a handle leaves its lock and ends, a request is granted or waits, a node is deleted,
sessions are destroyed or expire.
-/

namespace Coordination.State

variable {s s' : State} {id above : NodeId} {handle : HandleId} {session : SessionId} {r : Handle}
variable {path : String} {n : Node} {mode : LockMode} {st : Store}

/-! ## What is left of the tables -/

/-- A holder gives up its lock, and the waiters are served. -/
def released (s : State) (handle : HandleId) (r : Handle) : State :=
  (((s.strip r.node handle).noteReleased r.session ⟨r.node, handle⟩).tell handle
    .lockReleased).promote r.node

/-- A handle leaves the lock of its node, as a holder or as a waiter, and the waiters are served. -/
def vacated (s : State) (handle : HandleId) (r : Handle) : State :=
  if s.locks.isHolder r.node handle then s.released handle r
  else if (s.locks.lock r.node).isWaiting handle then (s.strip r.node handle).promote r.node
  else s

/-- A handle leaves the lock of its node and ends. -/
def closed (s : State) (handle : HandleId) (r : Handle) : State := (s.vacated handle r).detach handle

/-- A request is granted, noted and announced. -/
def granted (s : State) (handle : HandleId) (r : Handle) (mode : LockMode) : State :=
  ({ s with
    locks := s.locks.insert r.node ((s.locks.lock r.node).grant ⟨r.session, handle⟩ mode) }.noteHeld
      r.session ⟨r.node, handle⟩).tell handle .lockAcquired

/-- A request waits its turn. -/
def queued (s : State) (handle : HandleId) (r : Handle) (mode : LockMode) : State :=
  { s with
    locks := s.locks.insert r.node ((s.locks.lock r.node).queue ⟨r.session, handle, mode⟩) }

/-- A node goes with its handles, and idle ephemeral nodes above it go too. -/
def deleted (s : State) (id above : NodeId) (path : String) (n : Node) : State :=
  (s.removed id above path n.handles.keys).reap above

/-- A session is marked as expired. -/
def marked (s : State) (id : SessionId) : State :=
  { s with sessions := s.sessions.modify id ({ · with state := .expired }) }

/-- Every session is moved to its state at a time. -/
def ticked (s : State) (now : Instant) : State := { s with sessions := (s.sessions.tick now).2 }

/-- The sessions whose time is up end one after another. -/
def expired (s : State) (now : Instant) : State :=
  (s.sessions.tick now).1.foldl teardown (s.ticked now)

/-! ## Soundness of what is left -/

/-- Between calls every lock is settled. -/
lemma Sound.settled (sound : s.Sound) (i : NodeId) : (s.locks.lock i).Settled :=
  sound.tidy.settled i (Set.notMem_empty i)

/-- Announcements keep the tables sound. -/
lemma Sound.of_sameTables (sound : s.Sound) (same : s.SameTables s') : s'.Sound :=
  ⟨sound.linked.of_sameTables same, sound.tidy.of_sameTables same⟩

/-- Once the only loose node is settled none is loose. -/
lemma insert_sdiff_self : (insert id (∅ : Set NodeId)) \ {id} = ∅ := by
  ext k
  simp

/-- A release keeps the tables sound. -/
lemma Sound.released (sound : s.Sound) (found : s.handles.get? handle = some r) :
    (s.released handle r).Sound := by
  have linked := (sound.linked.strip r.node handle).noteReleased r.session ⟨r.node, handle⟩
  have tidy := sound.tidy.release sound.linked found
  have same := ((s.strip r.node handle).noteReleased r.session
    ⟨r.node, handle⟩).sameTables_tell handle .lockReleased
  refine ⟨(linked.of_sameTables same).promote r.node, ?_⟩
  have served := (tidy.of_sameTables same).promote r.node
  rw [insert_sdiff_self] at served
  exact served

/-- A waiter that leaves its queue keeps the tables sound. -/
lemma Sound.withdrawn (sound : s.Sound) (idle : s.locks.isHolder id handle = false) :
    ((s.strip id handle).promote id).Sound := by
  refine ⟨(sound.linked.strip id handle).promote id, ?_⟩
  have waits : ∀ i, ⟨i, handle⟩ ∈ (s.locks.lock id).holders → i ∈ (∅ : Set SessionId) := by
    intro i mem
    have held : s.locks.isHolder id handle = true := LockState.isHolder_iff.mpr ⟨_, mem, rfl⟩
    rw [idle] at held
    cases held
  have served := (sound.tidy.strip waits).promote id
  rw [insert_sdiff_self] at served
  exact served

/-- A handle that leaves its lock keeps the tables sound, whatever its part in it. -/
lemma Sound.vacated (sound : s.Sound) (found : s.handles.get? handle = some r) :
    (s.vacated handle r).Sound := by
  unfold State.vacated
  split
  case isTrue => exact sound.released found
  case isFalse idle =>
    split
    case isTrue => exact sound.withdrawn (Bool.eq_false_iff.mpr idle)
    case isFalse => exact sound

/-- Whoever gives up a lock keeps its handle and makes room for the others. -/
lemma frame_released (s : State) (handle : HandleId) (r : Handle) :
    (s.released handle r).tree = s.tree ∧ (s.released handle r).handles = s.handles ∧
      (s.released handle r).store = s.store := by
  let left := (s.strip r.node handle).noteReleased r.session ⟨r.node, handle⟩
  have told := left.sameTables_tell handle .lockReleased
  have served := (left.tell handle .lockReleased).sameTables_promote r.node
  exact ⟨served.tree.trans told.tree, served.handles.trans told.handles,
    served.store.trans told.store⟩

/-- Leaving a lock touches neither the tree nor handles nor the store. -/
lemma frame_vacated (s : State) (handle : HandleId) (r : Handle) :
    (s.vacated handle r).tree = s.tree ∧ (s.vacated handle r).handles = s.handles ∧
      (s.vacated handle r).store = s.store := by
  unfold State.vacated
  split
  · exact s.frame_released handle r
  · split
    · have served := (s.strip r.node handle).sameTables_promote r.node
      exact ⟨served.tree, served.handles, served.store⟩
    · exact ⟨rfl, rfl, rfl⟩

/-- Whoever gives up a lock leaves the order of the requests. -/
lemma Linked.requests_released (linked : s.Linked) (found : s.handles.get? handle = some r)
    (i : NodeId) : ((s.released handle r).locks.lock i).requests =
      (s.locks.lock i).requests.filter (·.handle ≠ handle) := by
  have linked₁ := (linked.strip r.node handle).noteReleased r.session ⟨r.node, handle⟩
  have told := ((s.strip r.node handle).noteReleased r.session
    ⟨r.node, handle⟩).sameTables_tell handle .lockReleased
  have serves := (linked₁.of_sameTables told).serves r.node
  rw [← linked.requests_strip found]
  exact (serves.requests i).trans (congrArg (fun t => (LockTable.lock t i).requests) told.locks)

/-- So does whoever leaves a lock. -/
lemma Linked.requests_vacated (linked : s.Linked) (found : s.handles.get? handle = some r)
    (i : NodeId) : ((s.vacated handle r).locks.lock i).requests =
      (s.locks.lock i).requests.filter (·.handle ≠ handle) := by
  unfold State.vacated
  split
  case isTrue => exact linked.requests_released found i
  case isFalse idle =>
    split
    case isTrue =>
      rw [← linked.requests_strip found]
      exact ((linked.strip r.node handle).serves r.node).requests i
    case isFalse other =>
      -- a handle that is involved in no lock has made no request
      refine (List.filter_eq_self.mpr fun w mem => ?_).symm
      rw [decide_eq_true_eq]
      rintro rfl
      obtain ⟨-, rfl⟩ := linked.origin_of_request found mem
      have involved := LockState.involves_iff.mpr ⟨w, mem, rfl⟩
      rw [LockState.involves, Bool.or_eq_true] at involved
      exact involved.elim idle other

/-- A handle that has left the lock of its node is not involved in it. -/
lemma Linked.not_involves_vacated (linked : s.Linked) (found : s.handles.get? handle = some r) :
    ((s.vacated handle r).locks.lock r.node).involves handle = false := by
  rw [← Bool.not_eq_true, LockState.involves_iff]
  rintro ⟨w, mem, eq⟩
  rw [linked.requests_vacated found] at mem
  simpa [eq] using (List.mem_filter.mp mem).2

/-- A handle that has left its lock ends, and idle ephemeral nodes go with it. -/
lemma Sound.sheds_closed (sound : s.Sound) (found : s.handles.get? handle = some r) :
    ∃ lost, (s.vacated handle r).Sheds {handle} lost (s.closed handle r) ∧
      (s.closed handle r).Linked := by
  have vacated := sound.vacated found
  have found' : (s.vacated handle r).handles.get? handle = some r := by
    rw [(s.frame_vacated handle r).2.1]
    exact found
  obtain ⟨lost, sheds, -, linked⟩ :=
    vacated.linked.detach vacated.settled found' (sound.linked.not_involves_vacated found)
  exact ⟨lost, sheds, linked⟩

/-- Closing a handle keeps the tables sound. -/
lemma Sound.closed (sound : s.Sound) (found : s.handles.get? handle = some r) :
    (s.closed handle r).Sound := by
  obtain ⟨lost, sheds, linked⟩ := sound.sheds_closed found
  exact ⟨linked, (sound.vacated found).tidy.sheds sheds⟩

/-- A grant on the spot keeps the tables sound. -/
lemma Sound.granted (sound : s.Sound) (found : s.handles.get? handle = some r)
    (asks : mode ≠ .none) (fresh : (s.locks.lock r.node).involves handle = false)
    (admitted : (s.locks.lock r.node).admits mode = true) : (s.granted handle r mode).Sound :=
  (sound.grant found asks fresh admitted).of_sameTables (sameTables_tell ..)

/-- Reaping keeps the tables sound. -/
lemma Sound.reap (sound : s.Sound) (id : NodeId) : (s.reap id).Sound := by
  obtain ⟨lost, sheds, -, linked⟩ := sound.linked.reap sound.settled id
  exact ⟨linked, sound.tidy.sheds sheds⟩

/-- A node that may be removed goes with the handles on it. -/
lemma Sound.sheds_removed (sound : s.Sound) (checked : s.tree.checkRemove path s.locks = .ok id)
    (node : s.tree.get? id = some n) (above : NodeId) :
    s.Sheds {h | h ∈ n.handles} {id} (s.removed id above path n.handles.keys) := by
  obtain ⟨-, -, -, -, -, -, free⟩ := Tree.checkRemove_eq_ok_iff.mp checked
  have nobody : (s.locks.lock id).holders = [] := by
    simpa [LockTable.isHeld, LockState.isHeld] using free
  exact sound.linked.sheds_removed node
    (sound.linked.requests_of_not_held (sound.settled id) nobody) above path

/-- Removing a node with the handles on it keeps the tables sound. -/
lemma Sound.removed (sound : s.Sound) (checked : s.tree.checkRemove path s.locks = .ok id)
    (node : s.tree.get? id = some n) (foundAbove : s.tree.find? (Path.parent path) = some above) :
    (s.removed id above path n.handles.keys).Sound := by
  have sheds := sound.sheds_removed checked node above
  have wf := sound.linked.wellFormed_removed checked foundAbove n.handles.keys
  exact ⟨sound.linked.sheds sheds wf, sound.tidy.sheds sheds⟩

/-- So does a node that is deleted, with idle ephemeral nodes above it. -/
lemma Sound.sheds_deleted (sound : s.Sound) (checked : s.tree.checkRemove path s.locks = .ok id)
    (node : s.tree.get? id = some n) (foundAbove : s.tree.find? (Path.parent path) = some above) :
    ∃ lost, s.Sheds {h | h ∈ n.handles} lost (s.deleted id above path n) := by
  have removed := sound.removed checked node foundAbove
  obtain ⟨lost, sheds, -⟩ := removed.linked.reap removed.settled above
  have both := (sound.sheds_removed checked node above).trans sheds
  rw [Set.union_empty] at both
  exact ⟨_, both⟩

/-! ## The end of sessions -/

/-- A session that is marked as expired keeps its handles. -/
lemma sameOwners_marked (s : State) (session : SessionId) :
    SameOwners s.sessions (s.marked session).sessions := .modify _ fun _ => rfl

/-- Once a session is marked, its end is what is left to do. -/
lemma Sound.marked (sound : s.Sound) (session : SessionId) :
    (s.marked session).Linked ∧ (s.marked session).Tidy {session} ∅ := by
  refine ⟨sound.linked.with_sessions (s.sameOwners_marked session), ?_, sound.tidy.settled, ?_⟩
  · intro i x' found alive
    have other : i ≠ session := alive
    rw [State.marked, SessionTable.get?_modify, if_neg other] at found
    exact sound.tidy.live i x' found (Set.notMem_empty i)
  · intro i x' k h found alive
    have other : i ≠ session := alive
    rw [State.marked, SessionTable.get?_modify, if_neg other] at found
    exact sound.tidy.noted i x' k h found (Set.notMem_empty i)

/-- A moment later, the end of the sessions whose time is up is what is left to do. -/
lemma Sound.ticked (sound : s.Sound) (now : Instant) :
    (s.ticked now).Linked ∧ (s.ticked now).Tidy {i | i ∈ (s.sessions.tick now).1} ∅ := by
  have look : ∀ i, (s.ticked now).sessions.get? i = (s.sessions.get? i).map fun x =>
      if x.isLive then { x with state := s.sessions.stateAt x now } else x :=
    SessionTable.get?_tick
  refine ⟨sound.linked.with_sessions ⟨rfl, fun i => ?_⟩, ?_, sound.tidy.settled, ?_⟩
  · refine (congrArg (Option.map Session.handles) (look i)).trans ?_
    cases s.sessions.get? i with
    | none => rfl
    | some x =>
      simp only [Option.map_some]
      split <;> rfl
  · intro i x' found alive
    rw [look] at found
    obtain ⟨x, foundX, rfl⟩ := Option.map_eq_some_iff.mp found
    have live := sound.tidy.live i x foundX (Set.notMem_empty i)
    rw [if_pos live, Session.isLive_iff]
    -- a session that expires now is on the list
    exact fun late => alive (SessionTable.mem_tick.mpr ⟨x, foundX, live, late⟩)
  · intro i x' k h found alive
    rw [look] at found
    obtain ⟨x, foundX, rfl⟩ := Option.map_eq_some_iff.mp found
    have noted := sound.tidy.noted i x k h foundX (Set.notMem_empty i)
    split <;> exact noted

/-- What is left when the first of some sessions has ended. -/
lemma cons_sdiff {i : SessionId} {rest : List SessionId} (fresh : i ∉ rest) :
    {j | j ∈ i :: rest} \ {i} = {j | j ∈ rest} := by
  ext j
  simp only [List.mem_cons, Set.mem_sdiff, Set.mem_ofPred_eq, Set.mem_singleton_iff]
  constructor
  · rintro ⟨rfl | mem, other⟩
    · exact absurd rfl other
    · exact mem
  · intro mem
    refine ⟨.inr mem, ?_⟩
    rintro rfl
    exact fresh mem

/-- Some of the sessions that are to end do so one after another. -/
lemma Linked.teardownEach {list : List SessionId} {dying : Set SessionId} (linked : s.Linked)
    (tidy : s.Tidy dying ∅) (apart : list.Nodup) (ends : ∀ i ∈ list, i ∈ dying) :
    (list.foldl State.teardown s).Linked ∧
      (list.foldl State.teardown s).Tidy (dying \ {i | i ∈ list}) ∅ ∧
      s.Ends {i | i ∈ list} (list.foldl State.teardown s) := by
  induction list generalizing s dying with
  | nil =>
    have none : {i : SessionId | i ∈ []} = ∅ := by simp
    rw [none, Set.sdiff_empty]
    exact ⟨linked, tidy, .refl s⟩
  | cons i rest ih =>
    obtain ⟨fresh, apart⟩ := List.nodup_cons.mp apart
    obtain ⟨linked', tidy', first⟩ := linked.teardown tidy (ends i (List.mem_cons_self ..))
    obtain ⟨linked'', tidy'', later⟩ := ih linked' tidy' apart fun j mem =>
      ⟨ends j (List.mem_cons_of_mem i mem), fun eq => fresh (Set.mem_singleton_iff.mp eq ▸ mem)⟩
    have both : {j | j ∈ i :: rest} = {i} ∪ {j | j ∈ rest} := by
      ext j
      simp
    rw [both, ← Set.sdiff_sdiff]
    exact ⟨linked'', tidy'', first.trans later⟩

/-- What the end of each session brings about, the ends of several bring about. -/
lemma Linked.teardown_induction {P : State → State → Prop} (refl : ∀ s, P s s)
    (trans : ∀ s₁ s₂ s₃, P s₁ s₂ → P s₂ s₃ → P s₁ s₃)
    (step : ∀ s dying i, s.Linked → s.Tidy dying ∅ → i ∈ dying → P s (s.teardown i))
    {list : List SessionId} {dying : Set SessionId} (linked : s.Linked) (tidy : s.Tidy dying ∅)
    (apart : list.Nodup) (ends : ∀ i ∈ list, i ∈ dying) : P s (list.foldl State.teardown s) := by
  induction list generalizing s dying with
  | nil => exact refl s
  | cons i rest ih =>
    obtain ⟨fresh, apart⟩ := List.nodup_cons.mp apart
    have here := ends i (List.mem_cons_self ..)
    obtain ⟨linked', tidy', -⟩ := linked.teardown tidy here
    refine trans _ _ _ (step s dying i linked tidy here) (ih linked' tidy' apart fun j mem => ?_)
    exact ⟨ends j (List.mem_cons_of_mem i mem),
      fun eq => fresh (Set.mem_singleton_iff.mp eq ▸ mem)⟩

/-- When all of them have ended, nothing is left to do. -/
lemma Linked.teardownAll {list : List SessionId} (linked : s.Linked)
    (tidy : s.Tidy {i | i ∈ list} ∅) (apart : list.Nodup) :
    (list.foldl State.teardown s).Sound ∧ s.Ends {i | i ∈ list} (list.foldl State.teardown s) := by
  obtain ⟨linked', tidy', ends⟩ := linked.teardownEach tidy apart fun _ mem => mem
  rw [Set.sdiff_self] at tidy'
  exact ⟨⟨linked', tidy'⟩, ends⟩

/-- The end of all sessions that have expired keeps the tables sound. -/
lemma Sound.expired (sound : s.Sound) (now : Instant) : (s.expired now).Sound := by
  obtain ⟨linked, tidy⟩ := sound.ticked now
  exact (linked.teardownAll tidy (s.sessions.nodup_tick now)).1

/-- The end of a session by request keeps the tables sound. -/
lemma Sound.destroyed (sound : s.Sound) (session : SessionId) :
    ((s.marked session).teardown session).Sound := by
  obtain ⟨linked, tidy⟩ := sound.marked session
  obtain ⟨linked', tidy', -⟩ := linked.teardown tidy rfl
  rw [Set.sdiff_self] at tidy'
  exact ⟨linked', tidy'⟩

end Coordination.State
