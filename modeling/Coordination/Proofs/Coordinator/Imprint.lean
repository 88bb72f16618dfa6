import Coordination.Proofs.Coordinator.Reports
import Coordination.Proofs.Coordinator.Requests
import Coordination.Proofs.Tree.Record

/-!
# What a request leaves at a node

A request for the lock of a node or for a change of its attributes looks at one node and at the
session of its caller. What it leaves there is an `Imprint`: the lock and the attributes of the
node, the record of it, entries in the records of sessions, and news for handles on the node.
`SameAt` says that two states look the same to the requests at a node. An imprint does not change
what is seen at another node, and of two imprints at different nodes it does not matter which comes
first.
-/

namespace Coordination

/-- What a request leaves in the record of a session. -/
inductive SessionEntry where
  | contact (millis : Nat)
  | held (handle : HandleId)
  | released (handle : HandleId)

/-- The record of a session with an entry that concerns a node. -/
def SessionEntry.apply (node : NodeId) : SessionEntry → Session → Session
  | .contact millis, x => x.contact millis
  | .held handle, x => { x with locks := x.locks.add ⟨node, handle⟩ }
  | .released handle, x => { x with locks := x.locks.erase ⟨node, handle⟩ }

/-- What a request leaves at a node. -/
structure Imprint where
  entries : List (SessionId × SessionEntry) := []
  lock : Option LockState := none
  attrs : Option (FinMap String Bytes) := none
  /-- What the store holds for the path of the node. -/
  record : Option (String × Record) := none
  news : List (HandleId × Notification) := []

/-- The commands that tell handles their news. -/
def Imprint.told (p : Imprint) (t : HandleTable) : List Command :=
  p.news.flatMap fun (handle, n) => telling t n handle

/-- Entries for sessions that concern a node. -/
def SessionTable.enter (t : SessionTable) (node : NodeId)
    (entries : List (SessionId × SessionEntry)) : SessionTable :=
  entries.foldl (fun t e => t.modify e.1 (e.2.apply node)) t

namespace State

/-- The tables with an imprint at a node. -/
def imprint (s : State) (node : NodeId) (p : Imprint) : State where
  tree := p.attrs.elim s.tree fun attrs => s.tree.modify node ({ · with attrs })
  locks := p.lock.elim s.locks (s.locks.insert node)
  sessions := s.sessions.enter node p.entries
  handles := s.handles
  store := p.record.elim s.store fun (path, r) =>
    { s.store with contents := s.store.contents.insert (Record.key path) r.encode }
  outbox := s.outbox ++ p.told s.handles

end State

/-- The imprint is one at this node: its record is that of the node, and its news are for handles on
the node. -/
structure Imprint.At (p : Imprint) (node : NodeId) (s : State) : Prop where
  record : ∀ path r, p.record = some (path, r) → ∃ n, s.tree.get? node = some n ∧ n.path = path
  news : ∀ h n, (h, n) ∈ p.news → ∀ r, s.handles.get? h = some r → r.node = node

/-- Both states look the same to a request at the node. -/
structure State.SameAt (node : NodeId) (s s' : State) : Prop where
  live : ∀ i, s'.Live i ↔ s.Live i
  epoch : s'.sessions.epoch = s.sessions.epoch
  handles : s'.handles = s.handles
  tree : s'.tree.get? node = s.tree.get? node
  locks : s'.locks.get? node = s.locks.get? node
  fault : s'.store.fault = s.store.fault

variable {s s' : State} {node node' : NodeId} {p p' : Imprint} {t : SessionTable}

/-! ## Entries -/

namespace SessionEntry

/-- No entry brings a session to its end or back. -/
lemma isLive_apply (e : SessionEntry) (x : Session) : (e.apply node x).isLive = x.isLive := by
  cases e with
  | contact millis =>
    cases state : x.state <;>
      simp [apply, Session.contact, Session.reconnect, Session.isLive, state]
  | held => rfl
  | released => rfl

/-- The order of two contacts does not matter. -/
lemma contact_comm (m m' : Nat) (x : Session) :
    (x.contact m).contact m' = (x.contact m').contact m := by
  have later : max (max x.lastContact m) m' = max (max x.lastContact m') m := max_right_comm ..
  cases state : x.state <;> simp [Session.contact, Session.reconnect, state, later]

/-- Entries that concern different nodes do not get in each other's way. -/
lemma apply_comm (apart : node ≠ node') (e e' : SessionEntry) (x : Session) :
    e'.apply node' (e.apply node x) = e.apply node (e'.apply node' x) := by
  have locks {h h' : HandleId} : (⟨node, h⟩ : HeldLock) ≠ ⟨node', h'⟩ :=
    fun eq => apart (congrArg HeldLock.node eq)
  cases e with
  | contact m =>
    cases e' with
    | contact m' => exact contact_comm m m' x
    | held => rfl
    | released => rfl
  | held h =>
    cases e' with
    | contact => rfl
    | held h' => exact congrArg (fun locks => { x with locks }) (FinMap.insert_comm locks)
    | released h' => exact congrArg (fun locks => { x with locks }) (FinMap.erase_insert_comm locks)
  | released h =>
    cases e' with
    | contact => rfl
    | held h' =>
      exact congrArg (fun locks => { x with locks }) (FinMap.erase_insert_comm locks.symm).symm
    | released h' => exact congrArg (fun locks => { x with locks }) FinMap.erase_comm

end SessionEntry

namespace SessionTable

/-- The order of changes that commute does not matter. -/
lemma modify_comm {i j : SessionId} {f g : Session → Session} (comm : ∀ x, g (f x) = f (g x)) :
    (t.modify i f).modify j g = (t.modify j g).modify i f :=
  congrArg (fun sessions => { t with sessions }) (FinMap.modify_comm fun _ => comm)

/-- An entry goes past entries that concern another node. -/
lemma modify_enter (apart : node ≠ node') (e : SessionId × SessionEntry)
    (entries : List (SessionId × SessionEntry)) :
    (t.modify e.1 (e.2.apply node)).enter node' entries =
      (t.enter node' entries).modify e.1 (e.2.apply node) := by
  induction entries generalizing t with
  | nil => rfl
  | cons e' rest ih =>
    have swap : (t.modify e.1 (e.2.apply node)).modify e'.1 (e'.2.apply node') =
        (t.modify e'.1 (e'.2.apply node')).modify e.1 (e.2.apply node) :=
      modify_comm fun x => e.2.apply_comm apart e'.2 x
    exact (congrArg (·.enter node' rest) swap).trans ih

/-- The order of entries about different nodes does not matter. -/
lemma enter_comm (apart : node ≠ node') (entries entries' : List (SessionId × SessionEntry)) :
    (t.enter node entries).enter node' entries' = (t.enter node' entries').enter node entries := by
  induction entries generalizing t with
  | nil => rfl
  | cons e rest ih => exact ih.trans (congrArg (·.enter node rest) (modify_enter apart e entries'))

/-- Entries change neither the epoch nor who is live. -/
lemma enter_frame (entries : List (SessionId × SessionEntry)) :
    (t.enter node entries).epoch = t.epoch ∧
      ∀ i, ((t.enter node entries).get? i).map Session.isLive = (t.get? i).map Session.isLive := by
  induction entries generalizing t with
  | nil => exact ⟨rfl, fun _ => rfl⟩
  | cons e rest ih =>
    refine ⟨ih.1, fun i => (ih.2 i).trans ?_⟩
    rw [get?_modify]
    split
    · rw [Option.map_map]
      exact congrArg (Option.map · _) (funext e.2.isLive_apply)
    · rfl

end SessionTable

/-! ## Imprints at different nodes -/

namespace State

/-- A session is live if its entry says so. -/
lemma live_iff {i : SessionId} : s.Live i ↔ (s.sessions.get? i).map Session.isLive = some true := by
  rw [Option.map_eq_some_iff]
  rfl

/-- A state agrees with itself at every node. -/
lemma SameAt.refl (node : NodeId) (s : State) : s.SameAt node s :=
  ⟨fun _ => Iff.rfl, rfl, rfl, rfl, rfl, rfl⟩

/-- What is handed over does not matter to requests. -/
lemma SameAt.with_outbox (same : s.SameAt node s') (outbox : List Command) :
    s.SameAt node { s' with outbox } :=
  ⟨same.live, same.epoch, same.handles, same.tree, same.locks, same.fault⟩

/-- An imprint cannot be seen at another node. -/
lemma sameAt_imprint (apart : node ≠ node') (s : State) (p : Imprint) :
    s.SameAt node' (s.imprint node p) where
  live i := by
    have same : ((s.sessions.enter node p.entries).get? i).map Session.isLive = _ :=
      (SessionTable.enter_frame p.entries).2 i
    rw [live_iff, live_iff, ← same]
    rfl
  epoch := (SessionTable.enter_frame p.entries).1
  handles := rfl
  tree := by
    cases attrs : p.attrs with
    | none => simp [imprint, attrs]
    | some attrs' =>
      simp only [imprint, attrs, Option.elim_some]
      exact (FinMap.get?_modify ..).trans (if_neg apart.symm)
  locks := by
    cases lock : p.lock with
    | none => simp [imprint, lock]
    | some l =>
      simp only [imprint, lock, Option.elim_some]
      exact (FinMap.get?_insert ..).trans (if_neg apart.symm)
  fault := by
    cases record : p.record with
    | none => simp [imprint, record]
    | some b => simp [imprint, record]

/-- Imprints at different nodes leave the same tables in either order. -/
lemma sameTables_imprint_comm (apart : node ≠ node')
    (records : ∀ path r path' r', p.record = some (path, r) → p'.record = some (path', r') →
      path ≠ path') :
    ((s.imprint node p).imprint node' p').SameTables ((s.imprint node' p').imprint node p) where
  tree := by
    cases attrs : p.attrs with
    | none => simp [imprint, attrs]
    | some a =>
      cases attrs' : p'.attrs with
      | none => simp [imprint, attrs, attrs']
      | some a' =>
        simp only [imprint, attrs, attrs', Option.elim_some]
        exact congrArg (fun nodes => { s.tree with nodes })
          (FinMap.modify_comm fun eq => absurd eq apart.symm)
  locks := by
    cases lock : p.lock with
    | none => simp [imprint, lock]
    | some l =>
      cases lock' : p'.lock with
      | none => simp [imprint, lock, lock']
      | some l' =>
        simp only [imprint, lock, lock', Option.elim_some]
        exact FinMap.insert_comm apart.symm
  sessions := SessionTable.enter_comm apart.symm _ _
  handles := rfl
  store := by
    cases record : p.record with
    | none => simp [imprint, record]
    | some b =>
      cases record' : p'.record with
      | none => simp [imprint, record, record']
      | some b' =>
        have keys : Record.key b.1 ≠ Record.key b'.1 :=
          fun eq => records _ _ _ _ record record' (Record.key_injective eq)
        simp only [imprint, record, record', Option.elim_some]
        exact congrArg (fun contents => { s.store with contents }) (FinMap.insert_comm keys.symm)

/-- Only handles on the node are told. -/
lemma concerning_told {handle : HandleId} (here : p.At node s)
    (elsewhere : ∀ r, s.handles.get? handle = some r → r.node ≠ node) :
    concerning handle (p.told s.handles) = [] := by
  refine concerning_eq_nil fun c mem own => ?_
  obtain ⟨⟨h, n⟩, news, mem⟩ := List.mem_flatMap.mp mem
  obtain rfl : h = handle := (handle_of_telling mem).symm.trans own
  cases found : s.handles.get? h with
  | none => simp [telling, found] at mem
  | some r => exact elsewhere r found (here.news h n news r found)

/-- A handle is told the same in either order. -/
lemma concerning_told_comm (here : p.At node s) (there : p'.At node' s) (apart : node ≠ node')
    (handle : HandleId) : concerning handle (p.told s.handles ++ p'.told s.handles) =
      concerning handle (p'.told s.handles ++ p.told s.handles) := by
  rw [concerning_append, concerning_append]
  by_cases seat : ∀ r, s.handles.get? handle = some r → r.node ≠ node
  · rw [concerning_told here seat, List.append_nil, List.nil_append]
  · have other : ∀ r, s.handles.get? handle = some r → r.node ≠ node' := by
      rintro r found rfl
      refine seat fun r' found' eq => apart ?_
      rw [← eq, Option.some.inj (found.symm.trans found')]
    rw [concerning_told there other, List.append_nil, List.nil_append]

end State

end Coordination
