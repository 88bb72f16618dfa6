import Coordination.Proofs.Coordinator.Invariant

/-!
# Handles that end and nodes that go

`Closes` says which handles have ended in the tables of handles and sessions, and `Sheds` says the
same of all tables, with the nodes that have gone. Both compose, so what the end of a handle or the
removal of a node does to the tables is said once for each and added up along a run of them.
-/

namespace Coordination.State

variable {s s' s₁ s₂ s₃ : State} {id above : NodeId} {handle : HandleId} {session : SessionId}
variable {dying : Set SessionId} {loose : Set NodeId} {gone gone' : Set HandleId}
variable {lost lost' : Set NodeId} {path : String}

/-- Handles have ended in their table and in those of their sessions. -/
structure Closes (gone : Set HandleId) (s s' : State) : Prop where
  next_handle : s'.handles.next = s.handles.next
  next_session : s'.sessions.next = s.sessions.next
  ended : ∀ h ∈ gone, s'.handles.get? h = none
  stays : ∀ h ∉ gone, s'.handles.get? h = s.handles.get? h
  session : ∀ i x, s.sessions.get? i = some x → ∃ x', s'.sessions.get? i = some x' ∧
    x'.locks = x.locks ∧ x'.state = x.state ∧ ∀ h, h ∈ x'.handles ↔ h ∈ x.handles ∧ h ∉ gone
  old_session : ∀ i x', s'.sessions.get? i = some x' → ∃ x, s.sessions.get? i = some x

/-- Handles have ended, and nodes have gone with their locks, which nobody asked for. -/
structure Sheds (gone : Set HandleId) (lost : Set NodeId) (s s' : State) : Prop where
  closes : s.Closes gone s'
  store : s'.store = s.store
  gone_node : ∀ i ∈ lost, s'.tree.get? i = none ∧ s'.locks.get? i = none
  unused : ∀ i ∈ lost, (s.locks.lock i).requests = [] ∧
    ∀ n, s.tree.get? i = some n → ∀ h ∈ n.handles, h ∈ gone
  lock : ∀ i ∉ lost, s'.locks.get? i = s.locks.get? i
  node : ∀ i ∉ lost, ∀ n, s.tree.get? i = some n → ∃ n', s'.tree.get? i = some n' ∧
    n'.path = n.path ∧ n'.isDir = n.isDir ∧ n'.ephemeral = n.ephemeral ∧ n'.attrs = n.attrs ∧
      ∀ h, h ∈ n'.handles ↔ h ∈ n.handles ∧ h ∉ gone
  old_node : ∀ i n', s'.tree.get? i = some n' → ∃ n, s.tree.get? i = some n
  idle : ∀ h ∈ gone, ∀ i w, w ∈ (s.locks.lock i).requests → w.handle ≠ h

/-! ## Handles that end -/

/-- No handle has ended. -/
lemma Closes.refl (s : State) : s.Closes ∅ s where
  next_handle := rfl
  next_session := rfl
  ended := fun _ mem => absurd mem (Set.notMem_empty _)
  stays := fun _ _ => rfl
  session := fun _ x found => ⟨x, found, rfl, rfl, by simp⟩
  old_session := fun _ x' found => ⟨x', found⟩

/-- Handles that ended earlier and handles that ended later. -/
lemma Closes.trans (c : s₁.Closes gone s₂) (c' : s₂.Closes gone' s₃) :
    s₁.Closes (gone ∪ gone') s₃ where
  next_handle := c'.next_handle.trans c.next_handle
  next_session := c'.next_session.trans c.next_session
  ended := by
    intro h mem
    by_cases later : h ∈ gone'
    · exact c'.ended h later
    · rw [c'.stays h later]
      exact c.ended h (mem.resolve_right later)
  stays := by
    intro h out
    obtain ⟨first, later⟩ := not_or.mp out
    rw [c'.stays h later, c.stays h first]
  session := by
    intro i x found
    obtain ⟨x₂, found₂, locks₂, state₂, handles₂⟩ := c.session i x found
    obtain ⟨x₃, found₃, locks₃, state₃, handles₃⟩ := c'.session i x₂ found₂
    refine ⟨x₃, found₃, locks₃.trans locks₂, state₃.trans state₂, fun h => ?_⟩
    rw [handles₃, handles₂, Set.mem_union]
    tauto
  old_session := by
    intro i x₃ found₃
    obtain ⟨x₂, found₂⟩ := c'.old_session i x₃ found₃
    exact c.old_session i x₂ found₂

/-- A session that is left was there before. -/
lemma Closes.session_of (c : s.Closes gone s') {i : SessionId} {x' : Session}
    (found' : s'.sessions.get? i = some x') : ∃ x, s.sessions.get? i = some x ∧
      x'.locks = x.locks ∧ x'.state = x.state ∧ ∀ h, h ∈ x'.handles ↔ h ∈ x.handles ∧ h ∉ gone := by
  obtain ⟨x, found⟩ := c.old_session i x' found'
  obtain ⟨x₂, found₂, same⟩ := c.session i x found
  obtain rfl : x' = x₂ := Option.some.inj (found'.symm.trans found₂)
  exact ⟨x, found, same⟩

/-- A handle that is left was there before and has not ended. -/
lemma Closes.handle_of (c : s.Closes gone s') {r : Handle}
    (found' : s'.handles.get? handle = some r) :
    handle ∉ gone ∧ s.handles.get? handle = some r := by
  have out : handle ∉ gone := by
    intro mem
    rw [c.ended handle mem] at found'
    cases found'
  exact ⟨out, c.stays handle out ▸ found'⟩

/-- Each handle of a session is in the table of handles under that session. -/
def Owned (s : State) : Prop := ∀ i x h, s.sessions.get? i = some x → h ∈ x.handles →
  ∃ r, s.handles.get? h = some r ∧ r.session = i

/-- The handles that are left belong to sessions as before. -/
lemma Closes.owned (c : s.Closes gone s') (owned : s.Owned) : s'.Owned := by
  intro i x' h found' mem
  obtain ⟨x, found, -, -, handles⟩ := c.session_of found'
  obtain ⟨mem, out⟩ := (handles h).mp mem
  rw [c.stays h out]
  exact owned i x h found mem

/-- A handle leaves its own table and that of its session. -/
lemma closes_close (owned : s.Owned) {r : Handle} (found : s.handles.get? handle = some r) :
    s.Closes {handle} (({ s with handles :=
      { s.handles with handles := s.handles.handles.erase handle } }.dropFromSession r.session
        handle).send (.retire handle)) where
  next_handle := rfl
  next_session := rfl
  ended := by
    rintro h rfl
    exact FinMap.get?_erase_self
  stays := by
    intro h ne
    exact (FinMap.get?_erase ..).trans (if_neg ne)
  session := by
    intro i x foundX
    refine ⟨_, FinMap.get?_modify_of_get? foundX, ?_⟩
    split
    case isTrue => exact ⟨rfl, rfl, fun h => FinSet.mem_erase.trans and_comm⟩
    case isFalse other =>
      refine ⟨rfl, rfl, fun h => ⟨fun mem => ⟨mem, ?_⟩, And.left⟩⟩
      rintro rfl
      obtain ⟨r', found', owner⟩ := owned i x h foundX mem
      obtain rfl : r = r' := Option.some.inj (found.symm.trans found')
      exact other owner.symm
  old_session := by
    intro i x' foundX'
    obtain ⟨x, foundX, -⟩ := FinMap.get?_modify_eq_some.mp foundX'
    exact ⟨x, foundX⟩

/-- A handle of a removed node leaves its table and that of its session, and is retired. -/
lemma dropStale_of_get? {r : Handle} (found : s.handles.get? handle = some r) :
    s.dropStale handle = ({ s with handles :=
      { s.handles with handles := s.handles.handles.erase handle } }.dropFromSession r.session
        handle).send (.retire handle) := by
  rw [dropStale, HandleTable.close, HandleTable.get, found]
  rfl

/-- A handle that has ended already leaves nothing. -/
lemma dropStale_of_none (absent : s.handles.get? handle = none) : s.dropStale handle = s := by
  rw [dropStale, HandleTable.close, HandleTable.get, absent]
  rfl

/-- The handles of a list end. -/
lemma closes_dropStale (owned : s.Owned) (list : List HandleId) :
    s.Closes {h | h ∈ list} (list.foldl dropStale s) := by
  induction list generalizing s with
  | nil =>
    have none : {h : HandleId | h ∈ []} = ∅ := by simp
    rw [none]
    exact .refl s
  | cons h rest ih =>
    have both : {h' | h' ∈ h :: rest} = {h} ∪ {h' | h' ∈ rest} := by
      ext h'
      simp
    have first : s.Closes {h} (s.dropStale h) := by
      cases found : s.handles.get? h with
      | some r =>
        rw [dropStale_of_get? found]
        exact closes_close owned found
      | none =>
        rw [dropStale_of_none found]
        -- the handle ended before, so no session has it
        refine { Closes.refl s with ended := ?_, stays := fun _ _ => rfl, session := ?_ }
        · rintro _ rfl
          exact found
        · refine fun i x foundX => ⟨x, foundX, rfl, rfl, fun h' => ⟨fun mem => ⟨mem, ?_⟩, And.left⟩⟩
          rintro rfl
          obtain ⟨r, found', -⟩ := owned i x h' foundX mem
          rw [found] at found'
          cases found'
    rw [both, List.foldl_cons]
    exact first.trans (ih (first.owned owned))

/-- The end of handles touches neither tree nor locks nor store. -/
lemma foldl_dropStale_frame (list : List HandleId) :
    (list.foldl dropStale s).tree = s.tree ∧ (list.foldl dropStale s).locks = s.locks ∧
      (list.foldl dropStale s).store = s.store := by
  induction list generalizing s with
  | nil => exact ⟨rfl, rfl, rfl⟩
  | cons h rest ih =>
    obtain ⟨tree, locks, store⟩ := ih (s := s.dropStale h)
    have first : (s.dropStale h).tree = s.tree ∧ (s.dropStale h).locks = s.locks ∧
        (s.dropStale h).store = s.store := by
      unfold dropStale
      split <;> exact ⟨rfl, rfl, rfl⟩
    exact ⟨tree.trans first.1, locks.trans first.2.1, store.trans first.2.2⟩

/-! ## Nodes that go -/

/-- Nothing has gone. -/
lemma Sheds.refl (s : State) : s.Sheds ∅ ∅ s where
  closes := .refl s
  store := rfl
  gone_node := fun _ mem => absurd mem (Set.notMem_empty _)
  unused := fun _ mem => absurd mem (Set.notMem_empty _)
  lock := fun _ _ => rfl
  node := fun _ _ n found => ⟨n, found, rfl, rfl, rfl, rfl, by simp⟩
  old_node := fun _ n' found => ⟨n', found⟩
  idle := fun _ mem => absurd mem (Set.notMem_empty _)

/-- The locks of the nodes that stay are as before. -/
lemma Sheds.lock_eq (sheds : s.Sheds gone lost s') (out : id ∉ lost) :
    s'.locks.lock id = s.locks.lock id := by
  rw [LockTable.lock, sheds.lock id out, LockTable.lock]

/-- Nobody holds the locks of nodes that have gone. -/
lemma Sheds.lock_free (sheds : s.Sheds gone lost s') (mem : id ∈ lost) :
    s'.locks.lock id = .free :=
  LockTable.lock_of_none (sheds.gone_node id mem).2

/-- Nobody asked for the lock of a node that has gone. -/
lemma Sheds.requests_eq (sheds : s.Sheds gone lost s') (id : NodeId) :
    (s'.locks.lock id).requests = (s.locks.lock id).requests := by
  by_cases mem : id ∈ lost
  · rw [sheds.lock_free mem, (sheds.unused id mem).1]
    rfl
  · rw [sheds.lock_eq mem]

/-- A lock that nobody could be served at is left so. -/
lemma Sheds.settled (sheds : s.Sheds gone lost s') (settled : (s.locks.lock id).Settled) :
    (s'.locks.lock id).Settled := by
  by_cases mem : id ∈ lost
  · rw [sheds.lock_free mem]
    exact LockState.settled_free
  · rw [sheds.lock_eq mem]
    exact settled

/-- Whoever holds or waits for a lock that is left did so before. -/
lemma Sheds.request_of (sheds : s.Sheds gone lost s') {w : Waiter}
    (mem : w ∈ (s'.locks.lock id).requests) : id ∉ lost ∧ w ∈ (s.locks.lock id).requests := by
  by_cases out : id ∈ lost
  · rw [sheds.lock_free out] at mem
    cases mem
  · exact ⟨out, sheds.lock_eq out ▸ mem⟩

/-- A node that is left was there before. -/
lemma Sheds.node_of (sheds : s.Sheds gone lost s') {n' : Node}
    (found' : s'.tree.get? id = some n') : id ∉ lost ∧ ∃ n, s.tree.get? id = some n ∧
      n'.path = n.path ∧ n'.isDir = n.isDir ∧ n'.ephemeral = n.ephemeral ∧ n'.attrs = n.attrs ∧
        ∀ h, h ∈ n'.handles ↔ h ∈ n.handles ∧ h ∉ gone := by
  have out : id ∉ lost := by
    intro mem
    rw [(sheds.gone_node id mem).1] at found'
    cases found'
  obtain ⟨n, found⟩ := sheds.old_node id n' found'
  obtain ⟨n₂, found₂, same⟩ := sheds.node id out n found
  obtain rfl : n' = n₂ := Option.some.inj (found'.symm.trans found₂)
  exact ⟨out, n, found, same⟩

/-- What went earlier and what went later. -/
lemma Sheds.trans (sh : s₁.Sheds gone lost s₂) (sh' : s₂.Sheds gone' lost' s₃) :
    s₁.Sheds (gone ∪ gone') (lost ∪ lost') s₃ where
  closes := sh.closes.trans sh'.closes
  store := sh'.store.trans sh.store
  gone_node := by
    intro i mem
    by_cases later : i ∈ lost'
    · exact sh'.gone_node i later
    · obtain ⟨node, lock⟩ := sh.gone_node i (mem.resolve_right later)
      rw [sh'.lock i later]
      refine ⟨?_, lock⟩
      cases found : s₃.tree.get? i with
      | none => rfl
      | some n =>
        obtain ⟨n', found'⟩ := sh'.old_node i n found
        rw [node] at found'
        cases found'
  unused := by
    -- the handles of a node that goes second have ended with it or before
    intro i mem
    by_cases first : i ∈ lost
    · obtain ⟨free, seats⟩ := sh.unused i first
      exact ⟨free, fun n found h seat => .inl (seats n found h seat)⟩
    · obtain ⟨free, seats⟩ := sh'.unused i (mem.resolve_left first)
      refine ⟨sh.lock_eq first ▸ free, fun n found h seat => ?_⟩
      obtain ⟨n', found', -, -, -, -, handles⟩ := sh.node i first n found
      by_cases out : h ∈ gone
      · exact .inl out
      · exact .inr (seats n' found' h ((handles h).mpr ⟨seat, out⟩))
  lock := by
    intro i out
    obtain ⟨first, later⟩ := not_or.mp out
    rw [sh'.lock i later, sh.lock i first]
  node := by
    intro i out n found
    obtain ⟨first, later⟩ := not_or.mp out
    obtain ⟨n₂, found₂, path₂, dir₂, eph₂, attrs₂, handles₂⟩ := sh.node i first n found
    obtain ⟨n₃, found₃, path₃, dir₃, eph₃, attrs₃, handles₃⟩ := sh'.node i later n₂ found₂
    refine ⟨n₃, found₃, path₃.trans path₂, dir₃.trans dir₂, eph₃.trans eph₂, attrs₃.trans attrs₂,
      fun h => ?_⟩
    rw [handles₃, handles₂, Set.mem_union]
    tauto
  old_node := by
    intro i n₃ found₃
    obtain ⟨n₂, found₂⟩ := sh'.old_node i n₃ found₃
    exact sh.old_node i n₂ found₂
  idle := by
    intro h mem i w request
    by_cases first : h ∈ gone
    · exact sh.idle h first i w request
    · by_cases out : i ∈ lost
      · rw [(sh.unused i out).1] at request
        cases request
      · exact sh'.idle h (mem.resolve_left first) i w (sh.lock_eq out ▸ request)

/-- What comes after may announce what it likes. -/
lemma Sheds.of_sameTables (sheds : s₁.Sheds gone lost s₂) (same : s₂.SameTables s₃) :
    s₁.Sheds gone lost s₃ := by
  cases s₂
  cases s₃
  obtain ⟨rfl, rfl, rfl, rfl, rfl⟩ := same
  obtain ⟨⟨a, b, c, d, e, f⟩, g, h, i, j, k, l, m⟩ := sheds
  exact ⟨⟨a, b, c, d, e, f⟩, g, h, i, j, k, l, m⟩

/-- The links survive the end of handles that nobody uses for a lock. -/
lemma Linked.sheds (linked : s.Linked) (sheds : s.Sheds gone lost s') (wf : s'.tree.WellFormed) :
    s'.Linked where
  tree := wf
  session_of_handle := by
    intro h r found'
    obtain ⟨out, found⟩ := sheds.closes.handle_of found'
    obtain ⟨x, foundX, mem⟩ := linked.session_of_handle h r found
    obtain ⟨x', foundX', -, -, handles⟩ := sheds.closes.session _ x foundX
    exact ⟨x', foundX', (handles h).mpr ⟨mem, out⟩⟩
  node_of_handle := by
    intro h r found'
    obtain ⟨out, found⟩ := sheds.closes.handle_of found'
    obtain ⟨n, foundN, mem⟩ := linked.node_of_handle h r found
    -- a handle that is left keeps its node from going
    have stays : r.node ∉ lost := fun gone => out ((sheds.unused _ gone).2 n foundN h mem)
    obtain ⟨n', foundN', -, -, -, -, handles⟩ := sheds.node _ stays n foundN
    exact ⟨n', foundN', (handles h).mpr ⟨mem, out⟩⟩
  handle_of_session := sheds.closes.owned linked.handle_of_session
  handle_of_node := by
    intro i n' h found' mem'
    obtain ⟨-, n, found, -, -, -, -, handles⟩ := sheds.node_of found'
    obtain ⟨mem, out⟩ := (handles h).mp mem'
    rw [sheds.closes.stays h out]
    exact linked.handle_of_node i n h found mem
  node_of_lock := by
    intro i l found'
    have out : i ∉ lost := by
      intro mem
      rw [(sheds.gone_node i mem).2] at found'
      cases found'
    obtain ⟨n, found⟩ := linked.node_of_lock i l (sheds.lock i out ▸ found')
    obtain ⟨n', foundN', -⟩ := sheds.node i out n found
    exact ⟨n', foundN'⟩
  handle_of_request := by
    intro i w mem'
    obtain ⟨-, mem⟩ := sheds.request_of mem'
    obtain ⟨r, found, owner⟩ := linked.handle_of_request i w mem
    -- whoever asks for a lock does so through a handle that has not ended
    have out : w.handle ∉ gone := fun gone => sheds.idle _ gone i w mem rfl
    exact ⟨r, (sheds.closes.stays _ out).trans found, owner⟩
  consistent := by
    intro i l found'
    by_cases out : i ∈ lost
    · rw [(sheds.gone_node i out).2] at found'
      cases found'
    · exact linked.consistent i l (sheds.lock i out ▸ found')
  fresh_handle := by
    intro h r found'
    rw [sheds.closes.next_handle]
    exact linked.fresh_handle h r (sheds.closes.handle_of found').2
  fresh_session := by
    intro i x' found'
    obtain ⟨x, found⟩ := sheds.closes.old_session i x' found'
    rw [sheds.closes.next_session]
    exact linked.fresh_session i x found

/-- Nodes and handles may go from tables that are tidy. -/
lemma Tidy.sheds (tidy : s.Tidy dying loose) (sheds : s.Sheds gone lost s') :
    s'.Tidy dying loose where
  live := by
    intro i x' found' alive
    obtain ⟨x, found, -, state, -⟩ := sheds.closes.session_of found'
    rw [Session.isLive, state]
    exact tidy.live i x found alive
  settled := by
    intro i out
    exact sheds.settled (tidy.settled i out)
  noted := by
    intro i x' k h found' alive
    obtain ⟨x, found, locks, -, -⟩ := sheds.closes.session_of found'
    rw [locks, tidy.noted i x k h found alive]
    by_cases mem : k ∈ lost
    · have none : (s.locks.lock k).holders = [] := by
        have free := (sheds.unused k mem).1
        simpa [LockState.requests] using (List.append_eq_nil_iff.mp free).1
      rw [none, sheds.lock_free mem]
      rfl
    · rw [sheds.lock_eq mem]

/-! ## The end of a handle -/

/-- A handle that is not involved in a lock ends. -/
lemma Linked.sheds_unseat (linked : s.Linked) {r : Handle}
    (found : s.handles.get? handle = some r)
    (idle : (s.locks.lock r.node).involves handle = false) :
    s.Sheds {handle} ∅ (s.unseat handle r) where
  closes := by
    obtain ⟨a, b, c, d, e, f⟩ := closes_close linked.handle_of_session found
    exact ⟨a, b, c, d, e, f⟩
  store := rfl
  gone_node := fun _ mem => absurd mem (Set.notMem_empty _)
  unused := fun _ mem => absurd mem (Set.notMem_empty _)
  lock := fun _ _ => rfl
  node := by
    intro i _ n foundN
    refine ⟨_, FinMap.get?_modify_of_get? foundN, ?_⟩
    split
    case isTrue => exact ⟨rfl, rfl, rfl, rfl, fun h => FinSet.mem_erase.trans and_comm⟩
    case isFalse other =>
      refine ⟨rfl, rfl, rfl, rfl, fun h => ⟨fun mem => ⟨mem, ?_⟩, And.left⟩⟩
      rintro rfl
      exact other ((linked.mem_node_iff found foundN).mp mem).symm
  old_node := by
    intro i n' foundN'
    obtain ⟨n, foundN, -⟩ := FinMap.get?_modify_eq_some.mp foundN'
    exact ⟨n, foundN⟩
  idle := by
    rintro _ rfl i w mem rfl
    obtain ⟨-, rfl⟩ := linked.origin_of_request found mem
    exact LockState.ne_of_not_involves idle mem rfl

/-- A handle that uses no lock may leave the tables. -/
lemma Linked.unseat (linked : s.Linked) {r : Handle} (found : s.handles.get? handle = some r)
    (idle : (s.locks.lock r.node).involves handle = false) : (s.unseat handle r).Linked :=
  linked.sheds (linked.sheds_unseat found idle) (linked.tree.modify fun _ => ⟨rfl, rfl, rfl, rfl⟩)

/-! ## The removal of a node -/

/-- A childless node whose lock is free goes, and the handles on it end. -/
lemma Linked.sheds_removed (linked : s.Linked) {n : Node} (node : s.tree.get? id = some n)
    (free : (s.locks.lock id).requests = []) (above : NodeId) (path : String) :
    s.Sheds {h | h ∈ n.handles} {id} (s.removed id above path n.handles.keys) := by
  have pruned : ∀ i, (s.tree.prune id above path).get? i = if i = id then none else
      if i = above then (s.tree.get? i).map (·.dropChild (Path.name path)) else s.tree.get? i :=
    Tree.get?_prune
  let start : State := { s with tree := s.tree.prune id above path, locks := s.locks.erase id }
  obtain ⟨tree, locks, store⟩ := foldl_dropStale_frame (s := start) n.handles.keys
  have keys : {h | h ∈ n.handles.keys} = {h | h ∈ n.handles} := by
    ext h
    exact FinMap.mem_keys
  have closes := closes_dropStale (s := start) linked.handle_of_session n.handles.keys
  rw [keys] at closes
  suffices s.Sheds {h | h ∈ n.handles} {id} (n.handles.keys.foldl dropStale start) from
    this.of_sameTables (sameTables_tellAll _)
  have seats : ∀ i m, s.tree.get? i = some m → i ≠ id → ∀ h ∈ m.handles, h ∉ n.handles := by
    -- a handle has one node
    intro i m foundM other h mem mem'
    obtain ⟨r, found, rfl⟩ := linked.handle_of_node i m h foundM mem
    exact other ((linked.mem_node_iff found node).mp mem')
  constructor
  case closes =>
    obtain ⟨a, b, c, d, e, f⟩ := closes
    exact ⟨a, b, c, d, e, f⟩
  case store => exact store
  case gone_node =>
    rintro _ rfl
    rw [tree, locks]
    exact ⟨(pruned _).trans (if_pos rfl), FinMap.get?_erase_self⟩
  case unused =>
    rintro _ rfl
    refine ⟨free, fun m foundM h mem => ?_⟩
    obtain rfl : n = m := Option.some.inj (node.symm.trans foundM)
    exact mem
  case lock =>
    intro i other
    rw [locks]
    exact (FinMap.get?_erase ..).trans (if_neg other)
  case node =>
    intro i other m foundM
    have other : i ≠ id := other
    have apart := seats i m foundM other
    rw [tree, pruned, if_neg other, foundM]
    split
    case isTrue =>
      exact ⟨_, rfl, rfl, rfl, rfl, rfl, fun h => ⟨fun mem => ⟨mem, apart h mem⟩, And.left⟩⟩
    case isFalse =>
      exact ⟨m, rfl, rfl, rfl, rfl, rfl, fun h => ⟨fun mem => ⟨mem, apart h mem⟩, And.left⟩⟩
  case old_node =>
    intro i m' foundM'
    rw [tree, pruned] at foundM'
    split at foundM'
    case isTrue => cases foundM'
    case isFalse =>
      obtain ⟨m, foundM, -⟩ := ite_map_eq_some.mp foundM'
      exact ⟨m, foundM⟩
  case idle =>
    rintro h mem i w request rfl
    obtain ⟨r, found, rfl⟩ := linked.handle_of_node id n w.handle node mem
    obtain ⟨-, rfl⟩ := linked.origin_of_request found request
    rw [free] at request
    cases request

/-- With a node its entry and its name go from the tree. -/
lemma tree_removed (seated : List HandleId) :
    (s.removed id above path seated).tree = s.tree.prune id above path :=
  (sameTables_tellAll _).tree.trans (foldl_dropStale_frame seated).1

/-! ## Idle ephemeral nodes -/

/-- A node that is idle and ephemeral can be removed, and its lock is free. -/
lemma idleEphemeral?_eq_some (path : String) : s.idleEphemeral? id = some path ↔
    ∃ n, s.tree.get? id = some n ∧ n.path = path ∧ n.ephemeral = true ∧ (∀ h, h ∉ n.handles) ∧
      (∀ name, name ∉ n.children) ∧ (s.locks.lock id).holders = [] := by
  rw [idleEphemeral?]
  cases s.tree.get? id with
  | none => simp
  | some n =>
    simp only [Option.bind_eq_bind, Option.bind_some, Option.some.injEq, exists_eq_left',
      ← FinMap.isEmpty_iff, LockTable.isHeld, LockState.isHeld]
    cases n.ephemeral <;> cases n.handles.isEmpty <;> cases n.children.isEmpty <;>
      simp [and_comm]

/-- A settled lock that nobody holds is a lock nobody asked for. -/
lemma Linked.requests_of_not_held (linked : s.Linked) (settled : (s.locks.lock id).Settled)
    (free : (s.locks.lock id).holders = []) : (s.locks.lock id).requests = [] := by
  have idle := settled.waiters_eq_nil ((linked.consistent.lock id).free_iff.mpr free)
  rw [LockState.requests, free, idle]
  rfl

/-- What a check of an idle ephemeral node finds. -/
lemma Linked.checkRemove_of_idle (linked : s.Linked) (idle : s.idleEphemeral? id = some path) :
    s.tree.checkRemove path s.locks = .ok id := by
  obtain ⟨n, node, rfl, eph, -, childless, free⟩ := (idleEphemeral?_eq_some path).mp idle
  have found := linked.tree.find?_path node
  refine Tree.checkRemove_eq_ok_iff.mpr ⟨linked.tree.valid _ _ found, ?_, found, n, node, childless, ?_⟩
  · intro root
    -- the root is not ephemeral
    obtain ⟨r, foundRoot, -, -, persistent⟩ := linked.tree.root
    obtain rfl := (linked.tree.path_eq_root_iff node).mp root
    rw [node] at foundRoot
    rw [Option.some.inj foundRoot, persistent] at eph
    cases eph
  · simp [LockTable.isHeld, LockState.isHeld, free]

/-- An idle ephemeral node has a node above it. -/
lemma Linked.find?_above (linked : s.Linked) (checked : s.tree.checkRemove path s.locks = .ok id) :
    ∃ above, s.tree.find? (Path.parent path) = some above := by
  obtain ⟨valid, notRoot, found, -⟩ := Tree.checkRemove_eq_ok_iff.mp checked
  obtain ⟨above, -, foundAbove, -⟩ := linked.tree.parent path id found notRoot
  exact ⟨above, foundAbove⟩

/-- The tree stays well formed when a node goes that can be removed. -/
lemma Linked.wellFormed_removed (linked : s.Linked)
    (checked : s.tree.checkRemove path s.locks = .ok id)
    (foundAbove : s.tree.find? (Path.parent path) = some above) (seated : List HandleId) :
    (s.removed id above path seated).tree.WellFormed := by
  obtain ⟨valid, notRoot, found, n, node, childless, -⟩ := Tree.checkRemove_eq_ok_iff.mp checked
  rw [tree_removed]
  exact linked.tree.prune valid notRoot found node childless foundAbove

/-- The removal of an idle ephemeral node. -/
lemma Linked.removed_idle (linked : s.Linked) (settled : (s.locks.lock id).Settled)
    (idle : s.idleEphemeral? id = some path)
    (foundAbove : s.tree.find? (Path.parent path) = some above) :
    s.Sheds ∅ {id} (s.removed id above path []) ∧ (s.removed id above path []).Linked := by
  obtain ⟨n, node, -, -, unseated, -, free⟩ := (idleEphemeral?_eq_some path).mp idle
  have nobody : {h | h ∈ n.handles} = ∅ := by
    ext h
    simp [unseated h]
  have keys : n.handles.keys = [] :=
    List.eq_nil_iff_forall_not_mem.mpr fun h mem => unseated h (FinMap.mem_keys.mp mem)
  have sheds := linked.sheds_removed node (linked.requests_of_not_held settled free) above path
  rw [nobody, keys] at sheds
  refine ⟨sheds, linked.sheds sheds ?_⟩
  exact linked.wellFormed_removed (linked.checkRemove_of_idle idle) foundAbove []

/-- All the nodes of a set are ephemeral. -/
def Ephemeral (s : State) (lost : Set NodeId) : Prop :=
  ∀ i ∈ lost, ∃ n, s.tree.get? i = some n ∧ n.ephemeral = true

/-- If only ephemeral nodes have gone, the others are as they were but for their handles. -/
lemma Sheds.node_or (sheds : s.Sheds gone lost s') (eph : s.Ephemeral lost) {n : Node}
    (node : s.tree.get? id = some n) : (s'.tree.get? id = none ∧ n.ephemeral = true) ∨
      ∃ n', s'.tree.get? id = some n' ∧ n'.path = n.path ∧ n'.isDir = n.isDir ∧
        n'.ephemeral = n.ephemeral ∧ n'.attrs = n.attrs := by
  by_cases mem : id ∈ lost
  · obtain ⟨m, nodeM, ephemeral⟩ := eph id mem
    obtain rfl : n = m := Option.some.inj (node.symm.trans nodeM)
    exact .inl ⟨(sheds.gone_node id mem).1, ephemeral⟩
  · obtain ⟨n', node', path, dir, ephemeral, attrs, -⟩ := sheds.node id mem n node
    exact .inr ⟨n', node', path, dir, ephemeral, attrs⟩

/-- The nodes that went earlier and later were ephemeral. -/
lemma Ephemeral.union (eph : s.Ephemeral lost) (sheds : s.Sheds gone lost s')
    (eph' : s'.Ephemeral lost') : s.Ephemeral (lost ∪ lost') := by
  intro i mem
  by_cases first : i ∈ lost
  · exact eph i first
  · obtain ⟨n', found', persistent⟩ := eph' i (mem.resolve_left first)
    obtain ⟨-, n, found, -, -, same, -⟩ := sheds.node_of found'
    exact ⟨n, found, same ▸ persistent⟩

/-- Idle ephemeral nodes go, and nothing else. -/
lemma Linked.reapFrom (linked : s.Linked) (settled : ∀ i, (s.locks.lock i).Settled) (k : Nat) :
    ∃ lost, s.Sheds ∅ lost (s.reapFrom id k) ∧ s.Ephemeral lost ∧ (s.reapFrom id k).Linked := by
  have stop : ∃ lost, s.Sheds ∅ lost s ∧ s.Ephemeral lost ∧ s.Linked :=
    ⟨∅, .refl s, fun _ mem => absurd mem (Set.notMem_empty _), linked⟩
  induction k generalizing s id with
  | zero => exact stop
  | succ k ih =>
    rw [State.reapFrom]
    split
    · exact stop
    · rename_i path idle
      split
      · exact stop
      · rename_i above foundAbove
        obtain ⟨sheds, linked'⟩ := linked.removed_idle (settled id) idle foundAbove
        have eph : s.Ephemeral {id} := by
          obtain ⟨n, node, -, eph, -⟩ := (idleEphemeral?_eq_some path).mp idle
          rintro _ rfl
          exact ⟨n, node, eph⟩
        obtain ⟨lost, sheds', eph', linked''⟩ := ih linked' (fun i => sheds.settled (settled i))
          ⟨∅, .refl _, fun _ mem => absurd mem (Set.notMem_empty _), linked'⟩
        have both := sheds.trans sheds'
        rw [Set.union_empty] at both
        exact ⟨{id} ∪ lost, both, eph.union sheds eph', linked''⟩

/-- Reaping removes ephemeral nodes and ends no handle. -/
lemma Linked.reap (linked : s.Linked) (settled : ∀ i, (s.locks.lock i).Settled) (id : NodeId) :
    ∃ lost, s.Sheds ∅ lost (s.reap id) ∧ s.Ephemeral lost ∧ (s.reap id).Linked := by
  unfold State.reap
  split
  · exact ⟨∅, .refl s, fun _ mem => absurd mem (Set.notMem_empty _), linked⟩
  · exact linked.reapFrom settled _

/-- A handle that is not involved in a lock ends, and idle ephemeral nodes go. -/
lemma Linked.detach (linked : s.Linked) (settled : ∀ i, (s.locks.lock i).Settled) {r : Handle}
    (found : s.handles.get? handle = some r)
    (idle : (s.locks.lock r.node).involves handle = false) :
    ∃ lost, s.Sheds {handle} lost (s.detach handle) ∧ s.Ephemeral lost ∧
      (s.detach handle).Linked := by
  have first := linked.sheds_unseat found idle
  obtain ⟨lost, sheds, eph, linked'⟩ := (linked.unseat found idle).reap settled r.node
  have both := first.trans sheds
  rw [Set.union_empty, Set.empty_union] at both
  have eph' : s.Ephemeral (∅ ∪ lost) :=
    Ephemeral.union (fun _ mem => absurd mem (Set.notMem_empty _)) first eph
  rw [Set.empty_union] at eph'
  rw [State.detach, found]
  exact ⟨lost, both, eph', linked'⟩

end Coordination.State
