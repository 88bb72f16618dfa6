import Coordination.Proofs.Coordinator.Passage

/-!
# Identifiers that are given out

Nodes, sessions and handles are numbered by counters that never go back. `Advances` says what this
means for one call and goes over to runs: an identifier the counter has passed stands for what it
stood for before, or for nothing. `Allots` lists what a run has given out, in order.
-/

namespace Coordination

/-- What an identifier stands for, as far as it never changes. -/
abbrev Object : Entity → Type
  | .node => String
  | .session => Unit
  | .handle => Handle

/-- The identifier that an answer gives out. -/
def Answer.id? : (kind : Entity) → Answer → Option (Id kind)
  | .session, .session id _ => some id
  | .handle, .handle id => some id
  | _, _ => none

namespace Tree

/-- The identifiers of the nodes are those that the counter has passed. -/
structure Dense (t : Tree) : Prop where
  positive : 0 < t.next.number
  passed : ∀ id, (∃ n, t.get? id = some n) ↔ 0 < id.number ∧ id.number < t.next.number

variable {t t' : Tree} {path : String} {record : Record} {list : List Stored}

/-- In a new tree the root alone has an identifier. -/
lemma dense_new : new.Dense where
  positive := by decide
  passed id := by
    have look : new.get? id = if id = NodeId.root then some (.new Path.root true false) else none :=
      FinMap.get?_insert ..
    have only : 0 < id.number ∧ id.number < new.next.number ↔ id = NodeId.root := by
      obtain ⟨k⟩ := id
      simp only [new, NodeId.root, Id.next, Id.mk.injEq]
      omega
    rw [look, only]
    split <;> simp [*]

/-- Writing attributes into a node gives out no identifier. -/
lemma Dense.inscribe (dense : t.Dense) (id : NodeId) (attrs : FinMap String Bytes) :
    (t.inscribe id attrs).Dense where
  positive := dense.positive
  passed i := by
    have look : (t.inscribe id attrs).get? i =
        if i = id then (t.get? i).map ({ · with attrs }) else t.get? i := FinMap.get?_modify ..
    rw [look]
    refine Iff.trans ?_ (dense.passed i)
    split <;> simp

/-- A new node takes the next identifier. -/
lemma Dense.grow (dense : t.Dense) (above : NodeId) (path : String) (isDir ephemeral : Bool) :
    (t.grow above path isDir ephemeral).Dense where
  positive := Nat.succ_pos _
  passed i := by
    have next : (t.grow above path isDir ephemeral).next.number = t.next.number + 1 := rfl
    rw [get?_grow, next]
    by_cases new : i = t.next
    · rw [if_pos new, new]
      simp [dense.positive]
    · have other : i.number ≠ t.next.number := fun eq => new (congrArg Id.mk eq)
      have before : (∃ n, t.get? i = some n) ↔ 0 < i.number ∧ i.number < t.next.number + 1 := by
        rw [dense.passed i]
        omega
      rw [if_neg new, ← before]
      split <;> simp

/-- A node that is restored from a record takes the next identifier. -/
lemma Dense.graft (dense : t.Dense) {orphan : Bool}
    (grafted : t.graft (path, record) = .ok (orphan, t')) : t'.Dense := by
  rcases graft_eq_ok.mp grafted with ⟨-, -, rfl⟩ | ⟨-, -, above, checked, rfl⟩ | ⟨-, -, rfl, -⟩
  · exact dense.inscribe _ _
  · exact (dense.grow above path record.isDir false).inscribe _ _
  · exact dense

/-- Nodes restored from a list of records take the next identifiers. -/
lemma Dense.graftAll (dense : t.Dense) {orphans : List String}
    (grafted : t.graftAll list = .ok (orphans, t')) : t'.Dense := by
  induction list generalizing t orphans with
  | nil =>
    obtain ⟨-, rfl⟩ := Prod.mk.inj (Except.ok.inj grafted)
    exact dense
  | cons stored rest ih =>
    obtain ⟨orphan, t₁, orphans₁, first, later, -⟩ := graftAll_cons_eq_ok.mp grafted
    exact ih (dense.graft first) later

/-- After a recovery no identifier has been skipped. -/
lemma dense_of_recover {s s' : Store} (recovered : recover s = .ok (t, s')) : t.Dense := by
  obtain ⟨-, orphans, built, -⟩ := recover_eq_ok recovered
  obtain ⟨list, -, grafted⟩ := bind_eq_ok.mp built
  exact dense_new.graftAll grafted

end Tree

namespace SessionTable

variable {t t' t₁ t₂ t₃ : SessionTable}

/-- No session has come. -/
structure Dwindles (t t' : SessionTable) : Prop where
  next : t'.next = t.next
  absent : ∀ i, t.get? i = none → t'.get? i = none

/-- No session comes where nothing happens. -/
lemma Dwindles.refl (t : SessionTable) : t.Dwindles t := ⟨rfl, fun _ absent => absent⟩

/-- No session comes in two steps if none comes in either. -/
lemma Dwindles.trans (first : t₁.Dwindles t₂) (second : t₂.Dwindles t₃) : t₁.Dwindles t₃ where
  next := second.next.trans first.next
  absent i absent := second.absent i (first.absent i absent)

/-- Changing a session brings none back. -/
lemma dwindles_modify (t : SessionTable) (id : SessionId) (f : Session → Session) :
    t.Dwindles (t.modify id f) := by
  refine ⟨rfl, fun i absent => ?_⟩
  rw [get?_modify, absent]
  exact ite_self _

/-- Removing a session brings none back. -/
lemma dwindles_remove (t : SessionTable) (id : SessionId) : t.Dwindles (t.remove id) := by
  refine ⟨rfl, fun i absent => ?_⟩
  rw [get?_remove, absent]
  exact ite_self _

/-- Looking at the deadlines brings no session back. -/
lemma dwindles_tick (t : SessionTable) (now : Instant) : t.Dwindles (t.tick now).2 := by
  refine ⟨rfl, fun i absent => ?_⟩
  rw [get?_tick, absent]
  rfl

end SessionTable

namespace State

open SessionTable (Dwindles)

/-- The identifier that comes next. -/
def next (s : State) : (kind : Entity) → Id kind
  | .node => s.tree.next
  | .session => s.sessions.next
  | .handle => s.handles.next

/-- What an identifier stands for. -/
def object? (s : State) : {kind : Entity} → Id kind → Option (Object kind)
  | .node, id => (s.tree.get? id).map Node.path
  | .session, id => (s.sessions.get? id).map fun _ => ()
  | .handle, id => s.handles.get? id

/-- The identifiers that stand for something, in ascending order. -/
def ids (s : State) : (kind : Entity) → List (Id kind)
  | .node => s.tree.nodes.keys
  | .session => s.sessions.sessions.keys
  | .handle => s.handles.handles.keys

/-- The identifiers that stand for something in the second state only. -/
def added (s s' : State) (kind : Entity) : List (Id kind) :=
  (s'.ids kind).filter fun id => (s.object? id).isNone

/-- The counter has not gone back, and what it had passed stands for what it stood for, or for
nothing. -/
structure Advances (kind : Entity) (s s' : State) : Prop where
  used : ∀ id, id < s.next kind → id < s'.next kind
  object : ∀ id, id < s.next kind → ∀ o, s'.object? id = some o → s.object? id = some o

variable {s s' s₁ s₂ s₃ : State} {kind : Entity} {call : Call} {answer : Answer} {now : Instant}
variable {handle : HandleId} {r : Handle} {gone : Set HandleId} {dying : Set SessionId}
variable {session : SessionId}

/-! ## Sessions -/

/-- The same owners are the same sessions. -/
lemma SameOwners.dwindles {t t' : SessionTable} (same : SameOwners t t') : t.Dwindles t' := by
  refine ⟨same.next, fun i absent => Option.eq_none_iff_forall_ne_some.mpr fun x' found' => ?_⟩
  obtain ⟨x, found, -⟩ := same.backward found'
  rw [absent] at found
  cases found

/-- Closing handles brings no session back. -/
lemma Closes.dwindles (closes : s.Closes gone s') : s.sessions.Dwindles s'.sessions := by
  refine ⟨closes.next_session, fun i absent =>
    Option.eq_none_iff_forall_ne_some.mpr fun x' found' => ?_⟩
  obtain ⟨x, found⟩ := closes.old_session i x' found'
  rw [absent] at found
  cases found

/-- An announcement brings no session back. -/
lemma SameTables.dwindles (same : s.SameTables s') : s.sessions.Dwindles s'.sessions :=
  same.sessions ▸ .refl s.sessions

/-- A new node brings no session back. -/
lemma dwindles_grown (s : State) (above : NodeId) (path : String) (isDir ephemeral : Bool) :
    s.sessions.Dwindles (s.grown above path isDir ephemeral).sessions :=
  (s.sameTables_grown above path isDir ephemeral).dwindles

/-- A change of attributes brings no session back. -/
lemma dwindles_edited (s : State) (id : NodeId) (change : Node → Node) (n : Notification) :
    s.sessions.Dwindles (s.edited id change n).sessions := by
  have same : { s with tree := s.tree.modify id change }.SameTables (s.edited id change n) :=
    sameTables_tellAll n
  exact same.dwindles

/-- An opened handle brings no session back. -/
lemma dwindles_seated (s : State) (r : Handle) : s.sessions.Dwindles (s.seated r).sessions :=
  s.sessions.dwindles_modify r.session _

/-- Serving waiters brings no session back. -/
lemma dwindles_promote (s : State) (node : NodeId) :
    s.sessions.Dwindles (s.promote node).sessions := by
  rw [(s.sameTables_promote node).sessions]
  exact SessionTable.sameOwners_noteAll.dwindles

/-- A release brings no session back. -/
lemma dwindles_released (s : State) (handle : HandleId) (r : Handle) :
    s.sessions.Dwindles (s.released handle r).sessions := by
  let left := (s.strip r.node handle).noteReleased r.session ⟨r.node, handle⟩
  have told := left.sameTables_tell handle .lockReleased
  have noted : s.sessions.Dwindles left.sessions := s.sessions.dwindles_modify _ _
  exact (noted.trans told.dwindles).trans (dwindles_promote _ _)

/-- Leaving a lock brings no session back. -/
lemma dwindles_vacated (s : State) (handle : HandleId) (r : Handle) :
    s.sessions.Dwindles (s.vacated handle r).sessions := by
  unfold State.vacated
  split
  · exact s.dwindles_released handle r
  · split
    · exact dwindles_promote (s.strip r.node handle) r.node
    · exact .refl _

/-- A grant brings no session back. -/
lemma dwindles_granted (s : State) (handle : HandleId) (r : Handle) (mode : LockMode) :
    s.sessions.Dwindles (s.granted handle r mode).sessions := by
  refine Dwindles.trans ?_ (sameTables_tell ..).dwindles
  exact s.sessions.dwindles_modify r.session _

/-- The end of a session takes sessions away only. -/
lemma Linked.dwindles_teardown (linked : s.Linked) (tidy : s.Tidy dying ∅)
    (ends : session ∈ dying) : s.sessions.Dwindles (s.teardown session).sessions := by
  obtain ⟨-, leaving, owners, -⟩ := linked.relieved tidy ends
  obtain ⟨lost, sheds, -⟩ := leaving.detachAll
  exact (owners.dwindles.trans sheds.closes.dwindles).trans (SessionTable.dwindles_remove _ session)

/-- The end of all that have expired takes sessions away only. -/
lemma Sound.dwindles_expired (sound : s.Sound) (as_of : Instant) :
    s.sessions.Dwindles (s.expired as_of).sessions := by
  obtain ⟨linked, tidy⟩ := sound.ticked as_of
  have ended : (s.ticked as_of).sessions.Dwindles (s.expired as_of).sessions := by
    refine linked.teardown_induction (P := fun s s' => s.sessions.Dwindles s'.sessions) ?_ ?_ ?_
      tidy (s.sessions.nodup_tick as_of) fun i mem => mem
    · exact fun s => .refl s.sessions
    · exact fun s₁ s₂ s₃ first second => first.trans second
    · exact fun s dying i linked tidy ends => linked.dwindles_teardown tidy ends
  exact (s.sessions.dwindles_tick as_of).trans ended

/-- No call but the creation of a session adds one. -/
lemma Sound.sessions_done (sound : s.Sound) (done : s.Done now call answer s') :
    s'.sessions = (s.sessions.create now).2 ∨ s.sessions.Dwindles s'.sessions := by
  have contacted (i : SessionId) : s.sessions.Dwindles (s.contacted i now).sessions :=
    s.sessions.dwindles_modify i _
  have stored (i : SessionId) (st : Store) :
      s.sessions.Dwindles ((s.contacted i now).withStore st).sessions := contacted i
  cases done with
  | createSession => exact .inl rfl
  | keepalive => exact .inr (contacted _)
  | @destroySession session live =>
    obtain ⟨linked, tidy⟩ := sound.marked session
    exact .inr ((s.sessions.dwindles_modify session _).trans (linked.dwindles_teardown tidy rfl))
  | expireSessions as_of => exact .inr (sound.dwindles_expired as_of)
  | openHandle => exact .inr ((contacted _).trans (dwindles_seated _ _))
  | openNew => exact .inr (((stored _ _).trans (dwindles_grown ..)).trans (dwindles_seated _ _))
  | close owns =>
    obtain ⟨lost, sheds, -⟩ := (sound.contacted _ now).sheds_closed owns.found
    exact .inr (((contacted _).trans (dwindles_vacated _ _ _)).trans sheds.closes.dwindles)
  | mkdir => exact .inr ((stored _ _).trans (dwindles_grown ..))
  | @delete session path id above n st live checked node foundAbove =>
    obtain ⟨lost, sheds⟩ :=
      ((sound.contacted session now).withStore st).sheds_deleted checked node foundAbove
    exact .inr ((contacted session).trans sheds.closes.dwindles)
  | pathExists => exact .inr (contacted _)
  | readdir => exact .inr (contacted _)
  | attrSet => exact .inr ((stored _ _).trans (dwindles_edited ..))
  | attrGet => exact .inr (contacted _)
  | attrDel => exact .inr ((stored _ _).trans (dwindles_edited ..))
  | attrExists => exact .inr (contacted _)
  | attrList => exact .inr (contacted _)
  | lockGranted => exact .inr ((contacted _).trans (dwindles_granted _ _ _ _))
  | lockQueued => exact .inr (contacted _)
  | tryLock => exact .inr ((contacted _).trans (dwindles_granted _ _ _ _))
  | release => exact .inr ((contacted _).trans (dwindles_released _ _ _))
  | lockInfo => exact .inr (.refl _)
  | sizes => exact .inr (.refl _)
  | checkLocks => exact .inr (.refl _)

/-! ## Counters -/

/-- The identifiers in use are those that stand for something. -/
lemma mem_ids {id : Id kind} : id ∈ s.ids kind ↔ ∃ o, s.object? id = some o := by
  cases kind with
  | node => simp [ids, object?, Tree.get?, FinMap.mem_keys, FinMap.mem_iff]
  | session => simp [ids, object?, SessionTable.get?, FinMap.mem_keys, FinMap.mem_iff]
  | handle => exact FinMap.mem_keys.trans FinMap.mem_iff

/-- They are listed in ascending order. -/
lemma ids_ascending : (s.ids kind).Pairwise (· < ·) := by
  cases kind <;> exact FinMap.keys_ascending

/-- The counter has passed every identifier in use. -/
lemma Sound.lt_next (sound : s.Sound) {id : Id kind} {o : Object kind}
    (found : s.object? id = some o) : id < s.next kind := by
  cases kind with
  | node =>
    obtain ⟨n, foundN, -⟩ := Option.map_eq_some_iff.mp found
    exact sound.linked.tree.fresh id n foundN
  | session =>
    obtain ⟨x, foundX, -⟩ := Option.map_eq_some_iff.mp found
    exact sound.linked.fresh_session id x foundX
  | handle => exact sound.linked.fresh_handle id o found

/-- An identifier was added if it stood for nothing before and stands for something now. -/
lemma mem_added {id : Id kind} :
    id ∈ s.added s' kind ↔ s.object? id = none ∧ ∃ o, s'.object? id = some o := by
  rw [added, List.mem_filter, mem_ids, Option.isNone_iff_eq_none]
  exact and_comm

/-- Nothing was given out. -/
lemma Advances.refl (s : State) : s.Advances kind s :=
  ⟨fun _ used => used, fun _ _ _ found => found⟩

/-- Nothing was given out where the tables stay as they are. -/
lemma advances_of_eq (tree : s'.tree = s.tree) (sessions : s'.sessions = s.sessions)
    (handles : s'.handles = s.handles) : Advances kind s s' := by
  obtain ⟨_, _, _, _, _, _⟩ := s'
  subst tree sessions handles
  cases kind <;> exact ⟨fun _ used => used, fun _ _ _ found => found⟩

/-- What was given out later follows what was given out earlier. -/
lemma Advances.trans (first : Advances kind s₁ s₂) (second : Advances kind s₂ s₃) :
    Advances kind s₁ s₃ where
  used id used := second.used id (first.used id used)
  object id used o found := first.object id used o (second.object id (first.used id used) o found)

/-- What stands for nothing and has been passed stands for nothing from then on. -/
lemma Advances.absent (advances : Advances kind s s') {id : Id kind} (used : id < s.next kind)
    (absent : s.object? id = none) : s'.object? id = none := by
  refine Option.eq_none_iff_forall_ne_some.mpr fun o found => ?_
  have before := advances.object id used o found
  rw [absent] at before
  cases before

/-- What is added has not been passed before. -/
lemma Advances.added (advances : Advances kind s s') {id id' : Id kind} (used : id < s.next kind)
    (new : id' ∈ s.added s' kind) : id < id' := by
  obtain ⟨absent, o, found⟩ := mem_added.mp new
  by_contra behind
  have passed : id' < s.next kind := by
    by_cases eq : id' < id
    · exact StrictOrder.trans eq used
    · exact StrictOrder.connected behind eq ▸ used
  rw [advances.absent passed absent] at found
  cases found

/-- Handles that come and go advance their counter. -/
lemma HandleTurnover.advances (turnover : HandleTurnover call s s') : Advances .handle s s' where
  used h used := (turnover.spent h used).1
  object h used r' found' := by
    cases found : s.handles.get? h with
    | none =>
      have absent := (turnover.spent h used).2 found
      exact nomatch absent.symm.trans found'
    | some r =>
      rcases turnover.open_handle h r found with stays | ⟨ended, -⟩
      · exact found.trans (stays.symm.trans found')
      · exact nomatch ended.symm.trans found'

/-- Stages of a call advance the counter of nodes. -/
lemma Passage.advances {grants : List Grant} (passage : s.Passage call grants s') :
    Advances .node s s' where
  used id used := passage.lt_next used
  object id used path found' := by
    obtain ⟨n', foundN', rfl⟩ := Option.map_eq_some_iff.mp found'
    obtain ⟨n, found, same, -⟩ := passage.node_of used foundN'
    exact Option.map_eq_some_iff.mpr ⟨n, found, same.symm⟩

/-- Where sessions only go none is given out. -/
lemma advances_of_dwindles (dwindles : s.sessions.Dwindles s'.sessions) :
    Advances .session s s' where
  used id used := by
    rw [State.next, dwindles.next]
    exact used
  object id used o found' := by
    cases found : s.sessions.get? id with
    | none =>
      obtain ⟨x', foundX', -⟩ := Option.map_eq_some_iff.mp found'
      exact nomatch (dwindles.absent id found).symm.trans foundX'
    | some x => exact Option.map_eq_some_iff.mpr ⟨x, found, rfl⟩

/-- A new session takes the next identifier. -/
lemma advances_create (created : s'.sessions = (s.sessions.create now).2) :
    Advances .session s s' where
  used id used := by
    have next : s'.sessions.next = s.sessions.next.next := congrArg SessionTable.next created
    rw [State.next, next]
    exact StrictOrder.trans used (Id.lt_next _)
  object id used o found' := by
    have other : id ≠ s.sessions.next := by
      rintro rfl
      exact StrictOrder.irrefl _ used
    have same : s'.sessions.get? id = s.sessions.get? id := by
      rw [created, SessionTable.get?_create, if_neg other]
    exact (congrArg (Option.map fun _ => ()) same).symm.trans found'

/-- Whatever is done, no counter goes back. -/
lemma Sound.advances (sound : s.Sound) (done : s.Done now call answer s') :
    Advances kind s s' := by
  cases kind with
  | node =>
    obtain ⟨grants, passage⟩ := sound.passage done
    exact passage.advances
  | session =>
    rcases sound.sessions_done done with created | dwindles
    · exact advances_create created
    · exact advances_of_dwindles dwindles
  | handle => exact (sound.turnover done).handles.advances

/-- An identifier in an answer is the one that came next, and it has come into use. -/
lemma Sound.answers (sound : s.Sound) (done : s.Done now call answer s') {id : Id kind}
    (answered : answer.id? kind = some id) : id = s.next kind ∧ id ∈ s.added s' kind := by
  have fresh : s.object? (s.next kind) = none := by
    refine Option.eq_none_iff_forall_ne_some.mpr fun o found => ?_
    exact StrictOrder.irrefl _ (sound.lt_next found)
  suffices stands : id = s.next kind ∧ ∃ o, s'.object? id = some o by
    refine ⟨stands.1, mem_added.mpr ⟨?_, stands.2⟩⟩
    rw [stands.1, fresh]
  cases kind with
  | node => cases done <;> cases answered
  | session =>
    cases done with
    | createSession =>
      obtain rfl := Option.some.inj answered
      refine ⟨rfl, (), ?_⟩
      rw [object?, SessionTable.get?_create, if_pos rfl]
      rfl
    | _ => cases answered
  | handle =>
    cases done with
    | openHandle =>
      obtain rfl := Option.some.inj answered
      exact ⟨rfl, _, (handle_seated _).trans (if_pos rfl)⟩
    | @openNew session path flags interest callback above st =>
      obtain rfl := Option.some.inj answered
      have same := ((s.contacted session now).withStore st).sameTables_grown above path
        (flags.meets .directory) (flags.meets .ephemeral)
      refine ⟨rfl, _, (handle_seated _).trans (if_pos ?_)⟩
      rw [same.handles]
      rfl
    | _ => cases answered

/-- A contact gives out nothing. -/
lemma advances_contacted (s : State) (caller : SessionId) (now : Instant) :
    Advances kind s (s.contacted caller now) := by
  cases kind with
  | node => exact ⟨fun _ used => used, fun _ _ _ found => found⟩
  | session => exact advances_of_dwindles (s.sessions.dwindles_modify caller _)
  | handle => exact ⟨fun _ used => used, fun _ _ _ found => found⟩

end State

namespace Coordinator

variable {allowed : Set Fault} {during : State → Prop} {kind : Entity} {c c' : Coordinator}
variable {given : List (Id kind)}

/-- Every call advances all three counters. -/
lemma advances_perform (sound : c.state.Sound) (fault : StoreCall → Option Fault) (now : Instant)
    (call : Call) : State.Advances kind c.state
      ((c.withFaults fault).perform now call).coordinator.state := by
  have sound₁ : (c.withFaults fault).state.Sound := sound.withStore _
  have start : State.Advances kind c.state (c.withFaults fault).state :=
    State.advances_of_eq rfl rfl rfl
  refine start.trans ?_
  rcases perform_cases sound₁ now call with
    same | ⟨answer, s', deed, eq⟩ | ⟨e, s', ⟨kept, -⟩, eq⟩
  · rw [same]
    exact .refl _
  · rw [eq]
    exact (sound₁.advances deed).trans (State.advances_of_eq rfl rfl rfl)
  · rw [eq]
    rcases kept with rfl | ⟨caller, -, rfl⟩
    · exact State.advances_of_eq rfl rfl rfl
    · exact (State.advances_contacted _ caller now).trans (State.advances_of_eq rfl rfl rfl)

/-- No run takes a counter back. -/
lemma Onward.advances (reached : c.Reachable allowed) (led : Onward allowed during c c') :
    State.Advances kind c.state c'.state := by
  induction led with
  | stay => exact .refl _
  | perform led now call may holds ih =>
    exact ih.trans (advances_perform (led.reachable reached).sound _ now call)

/-! ## All that a run gives out -/

/-- A recovery gives its nodes the first identifiers of all, none twice and none left out; there is
no session yet and no handle. -/
lemma dense_of_recover {terms : LeaseTerms} {now : Instant} {store : Store}
    (recovered : recover terms now store = .ok c) (id : Id kind) :
    id ∈ c.state.ids kind ↔ 0 < id.number ∧ id < c.state.next kind := by
  obtain ⟨tree, st, rebuilt, rfl⟩ := recover_eq_ok recovered
  have none_yet : ¬ (0 < id.number ∧ id.number < 1) := by omega
  cases kind with
  | node =>
    refine Iff.trans ?_ ((Tree.dense_of_recover rebuilt).passed id)
    exact State.mem_ids.trans (by simp [State.object?, ofTree, State.new])
  | session => exact iff_of_false List.not_mem_nil none_yet
  | handle => exact iff_of_false List.not_mem_nil none_yet

/-- The identifiers of a kind that are given out in a run, in order: those in use at its start, then
call by call those that come into use. -/
inductive Allots (allowed : Set Fault) (kind : Entity) : List (Id kind) → Coordinator → Prop
  | new (terms : LeaseTerms) (now : Instant) {fault : StoreCall → Option Fault}
      (may : ∀ kind f, fault kind = some f → f ∈ allowed) :
      Allots allowed kind ((new terms now ⟨.empty, fault⟩).state.ids kind)
        (new terms now ⟨.empty, fault⟩)
  | recover {terms : LeaseTerms} {now : Instant} {store : Store} {c : Coordinator}
      (may : ∀ kind f, store.fault kind = some f → f ∈ allowed)
      (recovered : Coordinator.recover terms now store = .ok c) :
      Allots allowed kind (c.state.ids kind) c
  | perform {given : List (Id kind)} {c : Coordinator} (before : Allots allowed kind given c)
      (now : Instant) (call : Call) {fault : StoreCall → Option Fault}
      (may : ∀ kind f, fault kind = some f → f ∈ allowed) :
      Allots allowed kind
        (given ++ c.state.added ((c.withFaults fault).perform now call).coordinator.state kind)
        ((c.withFaults fault).perform now call).coordinator

/-- A run with its allotments is a run. -/
lemma Allots.reachable (allots : Allots allowed kind given c) : c.Reachable allowed := by
  induction allots with
  | new terms now may => exact .new terms now may
  | recover may recovered => exact .recover may recovered
  | perform before now call may ih => exact ih.perform now call may

/-- Every run has its allotments. -/
lemma Reachable.exists_allots (reached : c.Reachable allowed) (kind : Entity) :
    ∃ given, Allots allowed kind given c := by
  induction reached with
  | new terms now may => exact ⟨_, .new terms now may⟩
  | recover may recovered => exact ⟨_, .recover may recovered⟩
  | perform reached now call may ih =>
    obtain ⟨given, allots⟩ := ih
    exact ⟨_, allots.perform now call may⟩

/-- The counter has passed all that was given out. -/
lemma Allots.lt_next (allots : Allots allowed kind given c) :
    ∀ id ∈ given, id < c.state.next kind := by
  have used {s : State} (sound : s.Sound) : ∀ id ∈ s.ids kind, id < s.next kind := by
    intro id mem
    obtain ⟨o, found⟩ := State.mem_ids.mp mem
    exact sound.lt_next found
  induction allots with
  | new terms now may => exact used (Reachable.new terms now may).sound
  | recover may recovered => exact used (Reachable.recover may recovered).sound
  | @perform given c before now call fault may ih =>
    intro id mem
    rcases List.mem_append.mp mem with old | new
    · exact (advances_perform before.reachable.sound fault now call).used id (ih id old)
    · exact used (before.perform now call may).reachable.sound id (List.mem_of_mem_filter new)

/-- What is in use has been given out. -/
lemma Allots.mem (allots : Allots allowed kind given c) : ∀ id ∈ c.state.ids kind, id ∈ given := by
  induction allots with
  | new terms now may => exact fun id mem => mem
  | recover may recovered => exact fun id mem => mem
  | @perform given c before now call fault may ih =>
    intro id mem
    refine List.mem_append.mpr ?_
    cases found : c.state.object? id with
    | none => exact .inr (State.mem_added.mpr ⟨found, State.mem_ids.mp mem⟩)
    | some o => exact .inl (ih id (State.mem_ids.mpr ⟨o, found⟩))

/-- Every identifier is higher than those that were given out before it. -/
lemma Allots.ascending (allots : Allots allowed kind given c) : given.Pairwise (· < ·) := by
  induction allots with
  | new terms now may => exact State.ids_ascending
  | recover may recovered => exact State.ids_ascending
  | @perform given c before now call fault may ih =>
    refine List.pairwise_append.mpr ⟨ih, State.ids_ascending.filter _, fun id old id' new => ?_⟩
    exact (advances_perform before.reachable.sound fault now call).added (before.lt_next id old) new

/-- An identifier in an answer is new, and higher than all that were given out before. -/
lemma Allots.answers (allots : Allots allowed kind given c) {fault : StoreCall → Option Fault}
    {now : Instant} {call : Call} {answer : Answer} {id : Id kind}
    (result : ((c.withFaults fault).perform now call).result = .ok answer)
    (answered : answer.id? kind = some id) : (∀ old ∈ given, old < id) ∧
      id ∈ c.state.added ((c.withFaults fault).perform now call).coordinator.state kind := by
  have sound : (c.withFaults fault).state.Sound := allots.reachable.sound.withStore _
  obtain ⟨s', deed, state⟩ := done_of_ok sound result
  obtain ⟨rfl, new⟩ := sound.answers deed answered
  refine ⟨allots.lt_next, ?_⟩
  rw [state]
  exact new

end Coordinator

end Coordination
