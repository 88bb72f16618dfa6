import Coordination.Proofs.Coordinator.Invariant

/-!
# New nodes, sessions and handles

What a successful request adds to the tables keeps them sound: a node below a directory, a session
under a fresh identifier, a handle on an existing node. So do changes of attributes, which neither
handles nor the shape of the tree depend on.
-/

namespace Coordination.State

variable {s : State} {id above : NodeId} {session : SessionId} {path : String}
variable {isDir ephemeral : Bool} {dying : Set SessionId} {loose : Set NodeId}

/-- A session that is found and has not expired. -/
def Live (s : State) (id : SessionId) : Prop :=
  ∃ x, s.sessions.get? id = some x ∧ x.isLive = true

/-- The store after a change to the record of a node, which ephemeral nodes do not have. -/
def recorded (s : State) (ephemeral : Bool) (call : Store → Except Interruption Store) :
    Except Interruption Store :=
  if ephemeral then .ok s.store else call s.store

/-- A node is new, and the handles on the one above it are told. -/
def grown (s : State) (above : NodeId) (path : String) (isDir ephemeral : Bool) : State :=
  { s with tree := s.tree.grow above path isDir ephemeral }.tellAll above
    (.childAdded (Path.name path))

/-- A handle is new. -/
def seated (s : State) (r : Handle) : State :=
  let (handle, handles) := s.handles.add r
  { s with
    handles
    tree := s.tree.modify r.node (·.addHandle handle)
    sessions := s.sessions.modify r.session fun x => { x with handles := x.handles.add handle } }

/-- A node has another value or none for an attribute, and the handles on it are told. -/
def edited (s : State) (id : NodeId) (change : Node → Node) (n : Notification) : State :=
  { s with tree := s.tree.modify id change }.tellAll id n

/-- A live session is there after its contact. -/
lemma Live.contacted {caller : SessionId} {now : Instant} {i : SessionId} (live : s.Live i) :
    ∃ x, (s.contacted caller now).sessions.get? i = some x := by
  obtain ⟨x, found, -⟩ := live
  have same : SameOwners s.sessions (s.contacted caller now).sessions := .modify _ fun _ => rfl
  obtain ⟨x', found', -⟩ := same.forward found
  exact ⟨x', found'⟩

/-! ## The tree -/

/-- A new node is announced after it was made. -/
lemma sameTables_grown (s : State) (above : NodeId) (path : String) (isDir ephemeral : Bool) :
    { s with tree := s.tree.grow above path isDir ephemeral }.SameTables
    (s.grown above path isDir ephemeral) := sameTables_tellAll _

/-- The new node is found under the next identifier. -/
lemma get?_grown (s : State) (above : NodeId) (path : String) (isDir ephemeral : Bool) :
    (s.grown above path isDir ephemeral).tree.get? s.tree.next =
      some (.new path isDir ephemeral) := by
  rw [(s.sameTables_grown above path isDir ephemeral).tree, Tree.get?_grow, if_pos rfl]

/-- Links survive a change of the tree that keeps the handles on every node. -/
lemma Linked.with_tree (linked : s.Linked) {tree : Tree} (wf : tree.WellFormed)
    (kept : ∀ i n, s.tree.get? i = some n → ∃ n', tree.get? i = some n' ∧ n'.handles = n.handles)
    (fresh : ∀ i n', tree.get? i = some n' →
      (∃ n, s.tree.get? i = some n) ∨ n'.handles = .empty) :
    { s with tree }.Linked := by
  refine { linked with tree := wf, node_of_handle := ?_, handle_of_node := ?_, node_of_lock := ?_ }
  · intro h r found
    obtain ⟨n, foundN, mem⟩ := linked.node_of_handle h r found
    obtain ⟨n', foundN', handles⟩ := kept _ n foundN
    exact ⟨n', foundN', handles ▸ mem⟩
  · intro i n' h foundN' mem
    rcases fresh i n' foundN' with ⟨n, foundN⟩ | none
    · obtain ⟨n₂, found₂, handles⟩ := kept i n foundN
      obtain rfl : n' = n₂ := Option.some.inj (foundN'.symm.trans found₂)
      exact linked.handle_of_node i n h foundN (handles ▸ mem)
    · rw [none] at mem
      exact absurd mem FinMap.not_mem_empty
  · intro i l found
    obtain ⟨n, foundN⟩ := linked.node_of_lock i l found
    obtain ⟨n', foundN', -⟩ := kept i n foundN
    exact ⟨n', foundN'⟩

/-- Nothing between operations depends on the tree. -/
lemma Tidy.with_tree (tidy : s.Tidy dying loose) (tree : Tree) :
    { s with tree }.Tidy dying loose :=
  ⟨tidy.live, tidy.settled, tidy.noted⟩

/-- The tables stay sound when a node is created that can be. -/
lemma Sound.grown (sound : s.Sound) (checked : s.tree.checkCreate path = .ok above) :
    (s.grown above path isDir ephemeral).Sound := by
  obtain ⟨linked, tidy⟩ := sound
  have vacant := linked.tree.get?_next
  have next : { s with tree := s.tree.grow above path isDir ephemeral }.Linked := by
    refine linked.with_tree (linked.tree.grow checked) ?_ ?_
    · intro i n found
      have old : i ≠ s.tree.next := by
        rintro rfl
        rw [vacant] at found
        cases found
      rw [Tree.get?_grow, if_neg old, found]
      split
      · exact ⟨_, rfl, rfl⟩
      · exact ⟨n, rfl, rfl⟩
    · intro i n' found
      rw [Tree.get?_grow] at found
      split at found
      case isTrue =>
        obtain rfl := Option.some.inj found
        exact .inr rfl
      case isFalse =>
        obtain ⟨n, old, -⟩ := ite_map_eq_some.mp found
        exact .inl ⟨n, old⟩
  have same := s.sameTables_grown above path isDir ephemeral
  exact ⟨next.of_sameTables same, (tidy.with_tree _).of_sameTables same⟩

/-- The tables stay sound when the attributes of a node change. -/
lemma Sound.edited (sound : s.Sound) (id : NodeId) {change : Node → Node}
    (shape : ∀ n : Node, n.SameShape (change n)) (seats : ∀ n, (change n).handles = n.handles)
    (n : Notification) : (s.edited id change n).Sound := by
  obtain ⟨linked, tidy⟩ := sound
  have next : { s with tree := s.tree.modify id change }.Linked := by
    refine linked.with_tree (linked.tree.modify shape) ?_ ?_
    · intro i n found
      refine ⟨_, FinMap.get?_modify_of_get? found, ?_⟩
      split
      · exact seats n
      · rfl
    · intro i n' found
      obtain ⟨n, old, -⟩ := FinMap.get?_modify_eq_some.mp found
      exact .inl ⟨n, old⟩
  have same : { s with tree := s.tree.modify id change }.SameTables (s.edited id change n) :=
    sameTables_tellAll n
  exact ⟨next.of_sameTables same, (tidy.with_tree _).of_sameTables same⟩

/-- The store is none of the tables. -/
lemma Sound.withStore (sound : s.Sound) (store : Store) : (s.withStore store).Sound := by
  obtain ⟨linked, tidy⟩ := sound
  exact ⟨⟨linked.1, linked.2, linked.3, linked.4, linked.5, linked.6, linked.7, linked.8, linked.9,
    linked.10⟩, tidy.1, tidy.2, tidy.3⟩

/-- Nor is the outbox. -/
lemma Sound.with_outbox (sound : s.Sound) (outbox : List Command) : { s with outbox }.Sound := by
  obtain ⟨linked, tidy⟩ := sound
  exact ⟨⟨linked.1, linked.2, linked.3, linked.4, linked.5, linked.6, linked.7, linked.8, linked.9,
    linked.10⟩, tidy.1, tidy.2, tidy.3⟩

/-! ## Sessions and handles -/

/-- The tables stay sound when a session is created. -/
lemma Sound.created (sound : s.Sound) (now : Instant) :
    { s with sessions := (s.sessions.create now).2 }.Sound := by
  obtain ⟨linked, tidy⟩ := sound
  have look : ∀ i, (s.sessions.create now).2.get? i = if i = s.sessions.next then
      some ⟨.empty, .empty, .connected, s.sessions.millis now⟩ else s.sessions.get? i :=
    fun i => FinMap.get?_insert ..
  have old : ∀ i x, s.sessions.get? i = some x → i ≠ s.sessions.next := by
    rintro _ x found rfl
    exact StrictOrder.irrefl _ (linked.fresh_session _ x found)
  refine ⟨{ linked with
    session_of_handle := ?_, handle_of_session := ?_, fresh_session := ?_ }, ?_, tidy.settled, ?_⟩
  · intro h r found
    obtain ⟨x, foundX, mem⟩ := linked.session_of_handle h r found
    exact ⟨x, (look _).trans ((if_neg (old _ x foundX)).trans foundX), mem⟩
  · intro i x h foundX mem
    rw [look] at foundX
    split at foundX
    case isTrue =>
      obtain rfl := Option.some.inj foundX
      exact absurd mem FinMap.not_mem_empty
    case isFalse => exact linked.handle_of_session i x h foundX mem
  · intro i x foundX
    have step : (s.sessions.create now).2.next = s.sessions.next.next := rfl
    rw [step]
    rw [look] at foundX
    split at foundX
    case isTrue eq => exact eq ▸ Id.lt_next _
    case isFalse => exact StrictOrder.trans (linked.fresh_session i x foundX) (Id.lt_next _)
  · intro i x foundX alive
    rw [look] at foundX
    split at foundX
    case isTrue =>
      obtain rfl := Option.some.inj foundX
      rfl
    case isFalse => exact tidy.live i x foundX alive
  · intro i x node h foundX alive
    rw [look] at foundX
    split at foundX
    case isTrue eq =>
      obtain rfl := Option.some.inj foundX
      refine ⟨fun mem => absurd mem FinMap.not_mem_empty, fun mem => ?_⟩
      -- nobody holds a lock in the name of a session that was not there
      obtain ⟨r, found, owner, -⟩ := linked.handle_of_holder mem
      obtain ⟨x, foundX, -⟩ := linked.session_of_handle h r found
      exact absurd (owner.trans eq) (old _ x foundX)
    case isFalse => exact tidy.noted i x node h foundX alive

variable {r : Handle}

/-- The handles after one was opened. -/
lemma handle_seated (h : HandleId) : (s.seated r).handles.get? h =
    if h = s.handles.next then some r else s.handles.get? h := FinMap.get?_insert ..

/-- Open handles stay open. -/
lemma Linked.handle_seated (linked : s.Linked) {h : HandleId} {r' : Handle}
    (found : s.handles.get? h = some r') : (s.seated r).handles.get? h = some r' := by
  rw [State.handle_seated, if_neg, found]
  rintro rfl
  exact StrictOrder.irrefl _ (linked.fresh_handle _ r' found)

/-- A session has the handles it had, and its owner has the new one. -/
lemma session_of_seated {i : SessionId} {x' : Session}
    (found' : (s.seated r).sessions.get? i = some x') : ∃ x, s.sessions.get? i = some x ∧
      x'.locks = x.locks ∧ x'.isLive = x.isLive ∧
        ∀ h, h ∈ x'.handles ↔ h ∈ x.handles ∨ i = r.session ∧ h = s.handles.next := by
  obtain ⟨x, found, rfl⟩ := FinMap.get?_modify_eq_some.mp found'
  refine ⟨x, found, ?_⟩
  split
  case isTrue eq =>
    refine ⟨rfl, rfl, fun h => ?_⟩
    rw [FinSet.mem_add]
    simp [eq, or_comm]
  case isFalse ne => exact ⟨rfl, rfl, fun h => by simp [ne]⟩

/-- A node has the handles it had, and that of the new handle has this one. -/
lemma node_of_seated {i : NodeId} {n' : Node} (found' : (s.seated r).tree.get? i = some n') :
    ∃ n, s.tree.get? i = some n ∧
      ∀ h, h ∈ n'.handles ↔ h ∈ n.handles ∨ i = r.node ∧ h = s.handles.next := by
  obtain ⟨n, found, rfl⟩ := FinMap.get?_modify_eq_some.mp found'
  refine ⟨n, found, fun h => ?_⟩
  split
  case isTrue eq =>
    rw [Node.addHandle, FinSet.mem_add]
    simp [eq, or_comm]
  case isFalse ne => simp [ne]

/-- The new handle is listed with its session. -/
lemma session_seated {i : SessionId} {x : Session} (found : s.sessions.get? i = some x) :
    ∃ x', (s.seated r).sessions.get? i = some x' ∧
      ∀ h, h ∈ x'.handles ↔ h ∈ x.handles ∨ i = r.session ∧ h = s.handles.next := by
  have exist : ∃ x', (s.seated r).sessions.get? i = some x' :=
    ⟨_, FinMap.get?_modify_of_get? found⟩
  obtain ⟨x', found'⟩ := exist
  obtain ⟨y, old, -, -, handles⟩ := session_of_seated found'
  obtain rfl : x = y := Option.some.inj (found.symm.trans old)
  exact ⟨x', found', handles⟩

/-- The new handle is listed at its node. -/
lemma node_seated {i : NodeId} {n : Node} (found : s.tree.get? i = some n) :
    ∃ n', (s.seated r).tree.get? i = some n' ∧
      ∀ h, h ∈ n'.handles ↔ h ∈ n.handles ∨ i = r.node ∧ h = s.handles.next := by
  have exist : ∃ n', (s.seated r).tree.get? i = some n' := ⟨_, FinMap.get?_modify_of_get? found⟩
  obtain ⟨n', found'⟩ := exist
  obtain ⟨m, old, handles⟩ := node_of_seated found'
  obtain rfl : n = m := Option.some.inj (found.symm.trans old)
  exact ⟨n', found', handles⟩

/-- A new handle is linked to its session and its node. -/
lemma Linked.seated (linked : s.Linked) {x : Session} {n : Node}
    (owner : s.sessions.get? r.session = some x) (node : s.tree.get? r.node = some n) :
    (s.seated r).Linked where
  tree := linked.tree.modify fun _ => ⟨rfl, rfl, rfl, rfl⟩
  session_of_handle := by
    intro h r' found
    rw [State.handle_seated] at found
    split at found
    case isTrue eq =>
      obtain rfl := Option.some.inj found
      obtain ⟨x', foundX', handles⟩ := session_seated (r := r) owner
      exact ⟨x', foundX', (handles h).mpr (.inr ⟨rfl, eq⟩)⟩
    case isFalse =>
      obtain ⟨y, foundY, mem⟩ := linked.session_of_handle h r' found
      obtain ⟨y', foundY', handles⟩ := session_seated (r := r) foundY
      exact ⟨y', foundY', (handles h).mpr (.inl mem)⟩
  node_of_handle := by
    intro h r' found
    rw [State.handle_seated] at found
    split at found
    case isTrue eq =>
      obtain rfl := Option.some.inj found
      obtain ⟨n', foundN', handles⟩ := node_seated (r := r) node
      exact ⟨n', foundN', (handles h).mpr (.inr ⟨rfl, eq⟩)⟩
    case isFalse =>
      obtain ⟨m, foundM, mem⟩ := linked.node_of_handle h r' found
      obtain ⟨m', foundM', handles⟩ := node_seated (r := r) foundM
      exact ⟨m', foundM', (handles h).mpr (.inl mem)⟩
  handle_of_session := by
    intro i x' h found' mem'
    obtain ⟨y, found, -, -, handles⟩ := session_of_seated found'
    rcases (handles h).mp mem' with mem | ⟨rfl, rfl⟩
    · obtain ⟨r', foundR, eq⟩ := linked.handle_of_session i y h found mem
      exact ⟨r', linked.handle_seated foundR, eq⟩
    · exact ⟨r, (State.handle_seated _).trans (if_pos rfl), rfl⟩
  handle_of_node := by
    intro i n' h found' mem'
    obtain ⟨m, found, handles⟩ := node_of_seated found'
    rcases (handles h).mp mem' with mem | ⟨rfl, rfl⟩
    · obtain ⟨r', foundR, eq⟩ := linked.handle_of_node i m h found mem
      exact ⟨r', linked.handle_seated foundR, eq⟩
    · exact ⟨r, (State.handle_seated _).trans (if_pos rfl), rfl⟩
  node_of_lock := by
    intro i l found
    obtain ⟨m, foundM⟩ := linked.node_of_lock i l found
    obtain ⟨m', foundM', -⟩ := node_seated (r := r) foundM
    exact ⟨m', foundM'⟩
  handle_of_request := by
    intro i w mem
    obtain ⟨r', found, eqs⟩ := linked.handle_of_request i w mem
    exact ⟨r', linked.handle_seated found, eqs⟩
  consistent := linked.consistent
  fresh_handle := by
    intro h r' found
    have step : (s.seated r).handles.next = s.handles.next.next := rfl
    rw [step]
    rw [State.handle_seated] at found
    split at found
    case isTrue eq => exact eq ▸ Id.lt_next _
    case isFalse => exact StrictOrder.trans (linked.fresh_handle h r' found) (Id.lt_next _)
  fresh_session := by
    intro i x' found'
    obtain ⟨y, found, -⟩ := session_of_seated found'
    exact linked.fresh_session i y found

/-- The tables stay sound when a handle is opened on an existing node. -/
lemma Sound.seated (sound : s.Sound) {x : Session} {n : Node}
    (owner : s.sessions.get? r.session = some x) (node : s.tree.get? r.node = some n) :
    (s.seated r).Sound := by
  obtain ⟨linked, tidy⟩ := sound
  refine ⟨linked.seated owner node, ?_, tidy.settled, ?_⟩
  · intro i x' found' alive
    obtain ⟨y, found, -, live, -⟩ := session_of_seated found'
    rw [live]
    exact tidy.live i y found alive
  · intro i x' k h found' alive
    obtain ⟨y, found, locks, -, -⟩ := session_of_seated found'
    rw [locks]
    exact tidy.noted i y k h found alive

/-- The tables stay sound when a node is created and a handle opened on it. -/
lemma Sound.grown_seated (sound : s.Sound) (checked : s.tree.checkCreate path = .ok above)
    {x : Session} (owner : s.sessions.get? r.session = some x) (node : r.node = s.tree.next) :
    ((s.grown above path isDir ephemeral).seated r).Sound := by
  refine (sound.grown checked).seated (x := x) (n := .new path isDir ephemeral) ?_ ?_
  · rw [(s.sameTables_grown above path isDir ephemeral).sessions]
    exact owner
  · rw [node]
    exact get?_grown ..

end Coordination.State
