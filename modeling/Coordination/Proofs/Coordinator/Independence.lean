import Coordination.Proofs.Coordinator.Atomicity
import Coordination.Proofs.Coordinator.Imprint
import Coordination.Proofs.Coordinator.Staleness

/-!
# Requests on different nodes are independent

Every request for a lock or for a change of attributes is `Local`: its answer and its imprint depend
on the node of its handle and on whether its caller is live. As an imprint cannot be seen at another
node, two requests on different nodes can be made in either order: `Reachable.independent`.
-/

namespace Coordination

/-- The call asks for the lock of a node, gives it up or changes an attribute, in the name of a
session and through a handle. -/
inductive Call.Requests : Call → SessionId → HandleId → Prop
  | lock (caller : SessionId) (handle : HandleId) (mode : LockMode) :
      Requests (.lock caller handle mode) caller handle
  | tryLock (caller : SessionId) (handle : HandleId) (mode : LockMode) :
      Requests (.tryLock caller handle mode) caller handle
  | release (caller : SessionId) (handle : HandleId) :
      Requests (.release caller handle) caller handle
  | attrSet (caller : SessionId) (handle : HandleId) (name : String) (value : Bytes) :
      Requests (.attrSet caller handle name value) caller handle
  | attrDel (caller : SessionId) (handle : HandleId) (name : String) :
      Requests (.attrDel caller handle name) caller handle

/-- A working store after a change to the record of a node, which ephemeral nodes do not have. -/
def Store.written (st : Store) (ephemeral : Bool) (path : String) (r : Record) : Store :=
  if ephemeral then st else { st with contents := st.contents.insert (Record.key path) r.encode }

/-! ## How requests run -/

namespace LockTable

variable {t : LockTable} {node : NodeId} {session : SessionId} {handle : HandleId} {mode : LockMode}

/-- A handle that takes part in a lock already is refused. -/
lemma request_of_involved (asks : mode ≠ .none)
    (involved : (t.lock node).involves handle = true) :
    t.request node session handle mode = (.error (.alreadyHolding handle), t) := by
  rw [request, if_neg asks]
  dsimp only
  rw [if_pos involved, FinMap.insert_eq_self (get?_of_involves involved)]

/-- Whoever holds a lock or waits for it need not try for it. -/
lemma tryRequest_of_involved (asks : mode ≠ .none)
    (involved : (t.lock node).involves handle = true) :
    t.tryRequest node session handle mode = (.error (.alreadyHolding handle), t) := by
  rw [tryRequest, if_neg asks]
  dsimp only
  rw [if_pos involved, FinMap.insert_eq_self (get?_of_involves involved)]

end LockTable

namespace Op

open State

variable {s : State} {now : Instant} {caller : SessionId} {handle : HandleId} {r : Handle}
variable {mode : LockMode} {call : Call} {name : String} {why : Failure}

/-- A handle of someone else is none of the caller's. -/
lemma run_nodeOf_of_foreign (live : s.Live caller) (found : s.handles.get? handle = some r)
    (foreign : r.session ≠ caller) : (nodeOf caller handle now).run s =
      (.error (.refused (.badHandle handle)), s.contacted caller now) := by
  have got : (s.contacted caller now).handles.get handle = .ok r := by
    have found : (s.contacted caller now).handles.get? handle = some r := found
    rw [HandleTable.get, found]
  rw [nodeOf, run_bind_of_ok (run_touch live), run_get_bind, got,
    run_bind_of_ok (run_ofExcept_ok r), if_pos foreign]
  rfl

/-- A request that the lock refuses changes only the contact of its caller. -/
lemma run_lock_of_refused (owns : s.Owns caller handle r)
    (refused : s.locks.request r.node caller handle mode = (.error why, s.locks)) :
    (Call.op now (.lock caller handle mode)).run s =
      (.error (.refused why), s.contacted caller now) := by
  have refused : (s.contacted caller now).locks.request r.node caller handle mode = _ := refused
  rw [Call.op, run_map, lock, run_bind_of_ok (run_nodeOf owns), run_get_bind, refused]
  rfl

/-- An attempt that the lock refuses changes only the contact of its caller. -/
lemma run_tryLock_of_refused (owns : s.Owns caller handle r)
    (refused : s.locks.tryRequest r.node caller handle mode = (.error why, s.locks)) :
    (Call.op now (.tryLock caller handle mode)).run s =
      (.error (.refused why), s.contacted caller now) := by
  have refused : (s.contacted caller now).locks.tryRequest r.node caller handle mode = _ := refused
  rw [Call.op, run_map, tryLock, run_bind_of_ok (run_nodeOf owns), run_get_bind, refused]
  rfl

/-- A release by a handle that does not hold the lock changes only the contact of its caller. -/
lemma run_release_of_not_holder (owns : s.Owns caller handle r)
    (idle : s.locks.isHolder r.node handle = false) :
    (Call.op now (.release caller handle)).run s =
      (.error (.refused (.notLockHolder handle)), s.contacted caller now) := by
  have refused : (s.contacted caller now).locks.release r.node handle = _ :=
    LockTable.release_of_not_holder idle
  rw [Call.op, run_bind, release, run_bind_of_ok (run_nodeOf owns), run_get_bind, refused]
  rfl

/-- A holder gives the lock back and the waiters are served. -/
lemma run_release (sound : s.Sound) (owns : s.Owns caller handle r)
    (held : s.locks.isHolder r.node handle = true) :
    (Call.op now (.release caller handle)).run s =
      (.ok .done, (s.contacted caller now).released handle r) := by
  have sound₁ := sound.contacted caller now
  obtain ⟨holder, released⟩ := sound₁.linked.consistent.release_eq held
  have after := sound₁.released owns.found
  have check := run_checkLock after.linked (after.settled r.node)
  refine run_of_meets ?_
  rw [Call.op, meets_bind, release, meets_bind, meets_of_run (run_nodeOf owns), meets_bind,
    meets_get, meets_bind, released, meets_of_run (run_ofExcept_ok _)]
  rw [State.released, owns.own] at check ⊢
  simp only [meets_bind, meets_modify]
  exact (meets_of_run check).mpr ⟨rfl, rfl⟩

/-- The record of a node is written by a store that works. -/
lemma run_persist {n : Node} (node : s.tree.get? r.node = some n)
    (works : s.store.fault .put = none) (change : Record → Record) : (persist r.node change).run s =
      (.ok (), s.withStore (s.store.written n.ephemeral n.path (change n.record))) := by
  rw [persist, run_get_bind, Tree.record?, node]
  cases eph : n.ephemeral with
  | true =>
    simp only [Option.bind_eq_bind, Option.bind_some, eph, if_true]
    rfl
  | false =>
    simp only [Option.bind_eq_bind, Option.bind_some, eph, Bool.false_eq_true, if_false]
    rw [run_bind_of_ok (run_node node), run_store, Store.put_eq_ok.mpr ⟨works, rfl⟩]
    rfl

/-- An attribute is written to the store and then to the node. -/
lemma run_attrSet {n : Node} {value : Bytes} (owns : s.Owns caller handle r)
    (node : s.tree.get? r.node = some n) (works : s.store.fault .put = none) :
    (Call.op now (.attrSet caller handle name value)).run s = (.ok .done,
      ((s.contacted caller now).withStore
        (s.store.written n.ephemeral n.path (n.setAttr name value).record)).edited r.node
          (·.setAttr name value) (.attrSet name)) := by
  have node₁ : (s.contacted caller now).tree.get? r.node = some n := node
  have persisted := run_persist node₁ works fun r => { r with attrs := r.attrs.insert name value }
  rw [Call.op, run_bind, attrSet, run_bind_of_ok (run_nodeOf owns), run_bind_of_ok persisted]
  rfl

/-- An attribute that is there is taken from the store and then from the node. -/
lemma run_attrDel {n : Node} (owns : s.Owns caller handle r) (node : s.tree.get? r.node = some n)
    (works : s.store.fault .put = none) :
    (Call.op now (.attrDel caller handle name)).run s =
      if name ∈ n.attrs then (.ok .done,
        ((s.contacted caller now).withStore
          (s.store.written n.ephemeral n.path (n.dropAttr name).record)).edited r.node
            (·.dropAttr name) (.attrDel name))
      else (.error (.refused (.noSuchAttr name)), s.contacted caller now) := by
  have node₁ : (s.contacted caller now).tree.get? r.node = some n := node
  have persisted := run_persist node₁ works fun r => { r with attrs := r.attrs.erase name }
  rw [Call.op, run_bind, attrDel, run_bind_of_ok (run_nodeOf owns),
    run_bind_of_ok (run_node node₁)]
  by_cases mem : name ∈ n.attrs
  · rw [if_neg (not_not.mpr mem), if_pos mem, run_bind_of_ok persisted]
    rfl
  · rw [if_pos mem, if_neg mem]
    rfl

end Op

/-! ## What requests leave -/

namespace Imprint

variable (entry : SessionId × SessionEntry) (caller : SessionId) (handle : HandleId)

/-- Contact alone. -/
def contact : Imprint where
  entries := [entry]

/-- A lock is granted on the spot. -/
def granted (l : LockState) (mode : LockMode) : Imprint where
  entries := [entry, (caller, .held handle)]
  lock := some (l.grant ⟨caller, handle⟩ mode)
  news := [(handle, .lockAcquired)]

/-- A request waits. -/
def queued (l : LockState) (mode : LockMode) : Imprint where
  entries := [entry]
  lock := some (l.queue ⟨caller, handle, mode⟩)

/-- A lock is given up, and waiters are served. -/
def released (served : List Waiter × LockState) : Imprint where
  entries := [entry, (caller, .released handle)] ++
    served.1.map fun w => (w.session, .held w.handle)
  lock := some served.2
  news := (handle, .lockReleased) :: served.1.map fun w => (w.handle, .lockAcquired)

/-- A node has other attributes. -/
def edited (n : Node) (note : Notification) : Imprint where
  entries := [entry]
  attrs := some n.attrs
  record := if n.ephemeral then none else some (n.path, n.record)
  news := n.handles.keys.map (·, note)

end Imprint

namespace State

variable {s s' : State} {now : Instant} {caller : SessionId} {handle : HandleId} {r : Handle}
variable {node : NodeId} {mode : LockMode} {n : Node}

/-- States with the same tables that have handed over the same are the same. -/
lemma eq_of_sameTables (same : s.SameTables s') (outbox : s'.outbox = s.outbox) : s' = s := by
  cases s
  cases s'
  obtain ⟨rfl, rfl, rfl, rfl, rfl⟩ := same
  exact congrArg _ outbox

/-- The entry that contact leaves. -/
def contactEntry (s : State) (caller : SessionId) (now : Instant) : SessionId × SessionEntry :=
  (caller, .contact (s.sessions.millis now))

/-- A contact as an imprint. -/
lemma contacted_eq (s : State) (node : NodeId) (caller : SessionId) (now : Instant) :
    s.contacted caller now = s.imprint node (.contact (s.contactEntry caller now)) :=
  eq_of_sameTables ⟨rfl, rfl, rfl, rfl, rfl⟩ (List.append_nil _).symm

/-- A grant as an imprint. -/
lemma granted_eq (own : r.session = caller) : (s.contacted caller now).granted handle r mode =
    s.imprint r.node
      (.granted (s.contactEntry caller now) caller handle (s.locks.lock r.node) mode) := by
  subst own
  let locks := s.locks.insert r.node ((s.locks.lock r.node).grant ⟨r.session, handle⟩ mode)
  have told := sameTables_tell ({ s.contacted r.session now with locks }.noteHeld r.session
    ⟨r.node, handle⟩) handle .lockAcquired
  refine eq_of_sameTables ⟨told.tree, told.locks, told.sessions, told.handles, told.store⟩ ?_
  refine (outbox_tell ..).trans ?_
  simp [imprint, Imprint.granted, Imprint.told, noteHeld, contacted]

/-- A request that waits as an imprint. -/
lemma queued_eq (own : r.session = caller) : (s.contacted caller now).queued handle r mode =
    s.imprint r.node
      (.queued (s.contactEntry caller now) caller handle (s.locks.lock r.node) mode) := by
  subst own
  exact eq_of_sameTables ⟨rfl, rfl, rfl, rfl, rfl⟩ (List.append_nil _).symm

/-- A release as an imprint. -/
lemma released_eq (own : r.session = caller) (held : s.locks.isHolder r.node handle = true) :
    (s.contacted caller now).released handle r = s.imprint r.node
      (.released (s.contactEntry caller now) caller handle
        ((s.locks.lock r.node).without (· = handle)).promote) := by
  subst own
  have involved : (s.locks.lock r.node).involves handle = true := by
    rw [LockState.involves, Bool.or_eq_true]
    exact .inl held
  have entry := LockTable.get?_of_involves involved
  let left := ((s.contacted r.session now).strip r.node handle).noteReleased r.session
    ⟨r.node, handle⟩
  have told := left.sameTables_tell handle .lockReleased
  have served := (left.tell handle .lockReleased).sameTables_promote r.node
  have locks : (left.tell handle .lockReleased).locks = s.locks.strip r.node handle := told.locks
  have lock : (left.tell handle .lockReleased).locks.lock r.node =
      (s.locks.lock r.node).without (· = handle) := by
    rw [locks, LockTable.lock_strip, if_pos rfl]
  rw [lock, locks, told.sessions] at served
  refine eq_of_sameTables ⟨served.tree.trans told.tree, ?_, ?_, served.handles.trans told.handles,
    served.store.trans told.store⟩ ?_
  · refine served.locks.trans ?_
    apply FinMap.ext
    simp only [LockTable.strip, imprint, Imprint.released, Option.elim_some]
    grind
  · refine served.sessions.trans ?_
    simp only [imprint, Imprint.released, SessionTable.enter, List.foldl_append, List.foldl_map]
    rfl
  · refine (outbox_promote ..).trans ?_
    rw [lock, outbox_tell, told.handles, imprint, Imprint.told, Imprint.released, List.flatMap_cons,
      List.flatMap_map, List.flatMap_map, List.append_assoc]
    rfl

/-- A change of attributes as an imprint. -/
lemma edited_eq (change : Node → Node) (seat : s.tree.get? r.node = some n)
    {attrs : FinMap String Bytes} (changed : change n = { n with attrs }) (note : Notification) :
    ((s.contacted caller now).withStore
      (s.store.written n.ephemeral n.path (change n).record)).edited r.node change note =
    s.imprint r.node (.edited (s.contactEntry caller now) { n with attrs } note) := by
  let next := { (s.contacted caller now).withStore
      (s.store.written n.ephemeral n.path (change n).record) with
    tree := s.tree.modify r.node change }
  have told : next.SameTables (next.tellAll r.node note) := sameTables_tellAll note
  have nodes : s.tree.nodes.modify r.node change = s.tree.nodes.insert r.node { n with attrs } := by
    rw [FinMap.modify_of_get? seat, changed]
  have seat' : next.tree.get? r.node = some { n with attrs } := by
    rw [Tree.get?, show next.tree.nodes = _ from nodes, FinMap.get?_insert, if_pos rfl]
  refine eq_of_sameTables ⟨?_, told.locks, told.sessions, told.handles, ?_⟩ ?_
  · refine told.tree.trans (congrArg (fun nodes => { s.tree with nodes }) ?_)
    rw [nodes, FinMap.modify_of_get? seat]
  · refine told.store.trans ?_
    cases eph : n.ephemeral <;>
      simp [next, imprint, Imprint.edited, withStore, Store.written, eph, changed]
  · refine (outbox_tellAll seat' note).trans ?_
    rw [imprint, Imprint.told, Imprint.edited, List.flatMap_map]
    rfl

end State

/-! ## Requests are local -/

/-- Over all sound tables that look the same at the node, the program answers the same and leaves
the same imprint there. -/
def Op.Local {α : Type} (op : Op α) (node : NodeId) (s : State) : Prop :=
  ∃ result p, p.At node s ∧
    ∀ s', s'.Sound → s.SameAt node s' → op.run s' = (result, s'.imprint node p)

namespace State

variable {s s' : State} {now : Instant} {caller : SessionId} {handle : HandleId} {r : Handle}
variable {node : NodeId} {mode : LockMode} {n : Node} {name : String} {value : Bytes}

/-- States that agree at a node agree about its lock. -/
lemma SameAt.lock (same : s.SameAt node s') : s'.locks.lock node = s.locks.lock node := by
  rw [LockTable.lock, LockTable.lock, same.locks]

/-- States that agree at a node agree about what a contact leaves of a session. -/
lemma SameAt.contactEntry (same : s.SameAt node s') (caller : SessionId) (now : Instant) :
    s'.contactEntry caller now = s.contactEntry caller now := by
  rw [State.contactEntry, SessionTable.millis, same.epoch]
  rfl

/-- States that agree at a node agree about who owns a handle. -/
lemma SameAt.owns (same : s.SameAt node s') (owns : s.Owns caller handle r) :
    s'.Owns caller handle r :=
  ⟨(same.live caller).mpr owns.live, same.handles ▸ owns.found, owns.own⟩

/-- The caller's handle is on its node. -/
lemma told_own (found : s.handles.get? handle = some r) {m : Notification} (h : HandleId)
    (m' : Notification) (mem : (h, m') ∈ [(handle, m)]) (r' : Handle)
    (found' : s.handles.get? h = some r') : r'.node = r.node := by
  obtain ⟨rfl, -⟩ := Prod.mk.inj (List.mem_singleton.mp mem)
  rw [Option.some.inj (found'.symm.trans found)]

/-- A request that is refused leaves the contact of its caller. -/
lemma local_of_refused {α : Type} {op : Op α} (caller : SessionId) (now : Instant) (why : Failure)
    (refused : ∀ s', s'.Sound → s.SameAt node s' →
      op.run s' = (.error (.refused why), s'.contacted caller now)) : op.Local node s := by
  refine ⟨.error (.refused why), .contact (s.contactEntry caller now), ⟨nofun, nofun⟩, ?_⟩
  intro s' sound' same
  rw [refused s' sound' same, s'.contacted_eq node, same.contactEntry]

/-- A request that is granted leaves its handle with the lock. -/
lemma local_of_granted {op : Op Answer} (owns : s.Owns caller handle r) (now : Instant)
    (mode : LockMode) (answer : Answer) (granted : ∀ s', s'.Sound → s.SameAt r.node s' →
      op.run s' = (.ok answer, (s'.contacted caller now).granted handle r mode)) :
    op.Local r.node s := by
  refine ⟨.ok answer, .granted (s.contactEntry caller now) caller handle (s.locks.lock r.node) mode,
    ⟨nofun, told_own owns.found⟩, fun s' sound' same => ?_⟩
  rw [granted s' sound' same, granted_eq owns.own, same.lock, same.contactEntry]

/-- A request for a lock looks at nothing but its node. -/
lemma local_lock (owns : s.Owns caller handle r) :
    (Call.op now (.lock caller handle mode)).Local r.node s := by
  by_cases asks : mode = .none
  · exact local_of_refused caller now (.invalidLockMode mode) fun s' _ same =>
      Op.run_lock_of_refused (same.owns owns) (if_pos asks)
  cases involved : (s.locks.lock r.node).involves handle with
  | true =>
    refine local_of_refused caller now (.alreadyHolding handle) fun s' _ same => ?_
    exact Op.run_lock_of_refused (same.owns owns)
      (LockTable.request_of_involved asks (same.lock ▸ involved))
  | false =>
    cases admitted : (s.locks.lock r.node).admits mode with
    | true =>
      let generation := ((s.locks.lock r.node).grant ⟨caller, handle⟩ mode).generation
      refine local_of_granted owns now mode (.lock (.granted generation)) fun s' sound' same => ?_
      rw [Op.run_lock_granted sound' (same.owns owns) asks (same.lock ▸ involved)
        (same.lock ▸ admitted), same.lock]
    | false =>
      refine ⟨.ok (.lock .queued),
        .queued (s.contactEntry caller now) caller handle (s.locks.lock r.node) mode,
        ⟨nofun, nofun⟩, fun s' sound' same => ?_⟩
      rw [Op.run_lock_queued sound' (same.owns owns) asks (same.lock ▸ involved)
        (same.lock ▸ admitted), queued_eq owns.own, same.lock, same.contactEntry]

/-- An attempt for a lock looks at nothing but its node. -/
lemma local_tryLock (owns : s.Owns caller handle r) :
    (Call.op now (.tryLock caller handle mode)).Local r.node s := by
  by_cases asks : mode = .none
  · exact local_of_refused caller now (.invalidLockMode mode) fun s' _ same =>
      Op.run_tryLock_of_refused (same.owns owns) (if_pos asks)
  cases involved : (s.locks.lock r.node).involves handle with
  | true =>
    refine local_of_refused caller now (.alreadyHolding handle) fun s' _ same => ?_
    exact Op.run_tryLock_of_refused (same.owns owns)
      (LockTable.tryRequest_of_involved asks (same.lock ▸ involved))
  | false =>
    cases admitted : (s.locks.lock r.node).admits mode with
    | true =>
      let generation := ((s.locks.lock r.node).grant ⟨caller, handle⟩ mode).generation
      refine local_of_granted owns now mode (.generation generation) fun s' sound' same => ?_
      rw [Op.run_tryLock_granted sound' (same.owns owns) asks (same.lock ▸ involved)
        (same.lock ▸ admitted), same.lock]
    | false =>
      exact local_of_refused caller now .busy fun s' _ same => Op.run_tryLock_busy (same.owns owns)
        asks (same.lock ▸ involved) (same.lock ▸ admitted)

/-- A release looks at nothing but its node. -/
lemma local_release (linked : s.Linked) (owns : s.Owns caller handle r) :
    (Call.op now (.release caller handle)).Local r.node s := by
  cases held : s.locks.isHolder r.node handle with
  | false =>
    refine local_of_refused caller now (.notLockHolder handle) fun s' _ same => ?_
    refine Op.run_release_of_not_holder (same.owns owns) ?_
    rw [LockTable.isHolder, same.lock]
    exact held
  | true =>
    refine ⟨.ok .done, .released (s.contactEntry caller now) caller handle
      ((s.locks.lock r.node).without (· = handle)).promote,
      ⟨by simp [Imprint.released], ?_⟩, fun s' sound' same => ?_⟩
    · intro h m mem r' found'
      rcases List.mem_cons.mp mem with own | mem
      · exact told_own owns.found h m (List.mem_singleton.mpr own) r' found'
      · -- who is served waited for the lock through a handle on the node
        obtain ⟨w, served, eq⟩ := List.mem_map.mp mem
        obtain rfl : w.handle = h := congrArg Prod.fst eq
        have asked := LockState.mem_requests_of_served served
        rw [LockState.requests_without] at asked
        exact (linked.origin_of_request found' (List.mem_of_mem_filter asked)).2
    · have held' : s'.locks.isHolder r.node handle = true := by
        rw [LockTable.isHolder, same.lock]
        exact held
      refine (Op.run_release sound' (same.owns owns) held').trans ?_
      rw [released_eq owns.own held', same.lock, same.contactEntry]

/-- A change of attributes is told to handles on the node, and to the store under its path. -/
lemma at_edited (linked : s.Linked) (seat : s.tree.get? node = some n)
    (entry : SessionId × SessionEntry) (attrs : FinMap String Bytes) (note : Notification) :
    (Imprint.edited entry { n with attrs } note).At node s where
  record path r' recorded := by
    refine ⟨n, seat, ?_⟩
    dsimp only [Imprint.edited] at recorded
    split at recorded
    · cases recorded
    · exact (Prod.mk.inj (Option.some.inj recorded)).1
  news h m mem r' found' := by
    obtain ⟨h', seated, eq⟩ := List.mem_map.mp mem
    obtain rfl : h' = h := congrArg Prod.fst eq
    exact (linked.mem_node_iff found' seat).mp (FinMap.mem_keys.mp seated)

/-- Setting an attribute looks at nothing but its node. -/
lemma local_attrSet (linked : s.Linked) (works : s.store.fault .put = none)
    (owns : s.Owns caller handle r) :
    (Call.op now (.attrSet caller handle name value)).Local r.node s := by
  obtain ⟨n, seat, -⟩ := linked.node_of_handle handle r owns.found
  refine ⟨.ok .done, _, at_edited linked seat (s.contactEntry caller now)
    (n.attrs.insert name value) (.attrSet name), fun s' _ same => ?_⟩
  refine (Op.run_attrSet (same.owns owns) (same.tree.trans seat) (same.fault ▸ works)).trans ?_
  rw [edited_eq (·.setAttr name value) (same.tree.trans seat) rfl, same.contactEntry]

/-- Deleting an attribute looks at nothing but its node. -/
lemma local_attrDel (linked : s.Linked) (works : s.store.fault .put = none)
    (owns : s.Owns caller handle r) :
    (Call.op now (.attrDel caller handle name)).Local r.node s := by
  obtain ⟨n, seat, -⟩ := linked.node_of_handle handle r owns.found
  by_cases mem : name ∈ n.attrs
  · refine ⟨.ok .done, _, at_edited linked seat (s.contactEntry caller now) (n.attrs.erase name)
      (.attrDel name), fun s' _ same => ?_⟩
    refine (Op.run_attrDel (same.owns owns) (same.tree.trans seat) (same.fault ▸ works)).trans ?_
    rw [if_pos mem, edited_eq (·.dropAttr name) (same.tree.trans seat) rfl, same.contactEntry]
  · refine local_of_refused caller now (.noSuchAttr name) fun s' _ same => ?_
    refine (Op.run_attrDel (same.owns owns) (same.tree.trans seat) (same.fault ▸ works)).trans ?_
    rw [if_neg mem]

end State

namespace Call.Requests

variable {s : State} {call : Call} {caller : SessionId} {handle : HandleId} {r : Handle}

/-- Such a call names its caller. -/
lemma caller_eq (requests : call.Requests caller handle) : call.caller? = some caller := by
  cases requests <;> rfl

/-- Such a call names its handle. -/
lemma handle_eq (requests : call.Requests caller handle) : call.handle? = some handle := by
  cases requests <;> rfl

/-- The session such a call contacts is that of its caller. -/
lemma session_eq (requests : call.Requests caller handle) : call.session? = some caller := by
  cases requests <;> rfl

/-- A request looks at the node of its handle and leaves its imprint there. -/
lemma isLocal (requests : call.Requests caller handle) (sound : s.Sound)
    (works : s.store.fault .put = none) (found : s.handles.get? handle = some r) (now : Instant) :
    (call.op now).Local r.node s := by
  by_cases live : s.Live caller
  · by_cases own : r.session = caller
    · have owns : s.Owns caller handle r := ⟨live, found, own⟩
      cases requests with
      | lock => exact State.local_lock owns
      | tryLock => exact State.local_tryLock owns
      | release => exact State.local_release sound.linked owns
      | attrSet => exact State.local_attrSet sound.linked works owns
      | attrDel => exact State.local_attrDel sound.linked works owns
    · refine State.local_of_refused caller now (.badHandle handle) fun s' _ same => ?_
      have starts := Op.startsWith_nodeOf requests.caller_eq requests.handle_eq now
      exact starts.run (Op.run_nodeOf_of_foreign ((same.live caller).mpr live)
        (same.handles ▸ found) own)
  · refine ⟨.error (.refused (.noSuchSession caller)), {}, ⟨nofun, nofun⟩, fun s' _ same => ?_⟩
    have dead : ¬ s'.Live caller := fun live' => live ((same.live caller).mp live')
    have untouched : s'.imprint r.node {} = s' :=
      State.eq_of_sameTables ⟨rfl, rfl, rfl, rfl, rfl⟩ (List.append_nil _)
    rw [untouched]
    exact Op.run_of_not_live requests.session_eq dead now

end Call.Requests

/-! ## Two requests -/

namespace State

variable {s : State} {node node' : NodeId} {p p' : Imprint}

/-- Different nodes are at different paths. -/
lemma Linked.records_apart (linked : s.Linked) (apart : node ≠ node') (here : p.At node s)
    (there : p'.At node' s) {path path' : String} {r r' : Record}
    (recorded : p.record = some (path, r)) (recorded' : p'.record = some (path', r')) :
    path ≠ path' := by
  rintro rfl
  obtain ⟨n, seat, eq⟩ := here.record path r recorded
  obtain ⟨n', seat', eq'⟩ := there.record path r' recorded'
  exact apart (linked.tree.id_unique seat seat' (eq.trans eq'.symm))

end State

namespace Coordinator

variable {c : Coordinator} {now now' : Instant} {call : Call}

/-- Over sound tables and a store that works, a call leads where it runs to. -/
lemma perform_of_run (serves : c.Serves) (sound : c.state.Sound)
    (works : ∀ kind, c.state.store.fault kind = none) {result : Except Interruption Answer}
    {s' : State} (run : (call.op now).run c.state = (result, s')) : c.perform now call =
      ⟨result, { c with state := { s' with outbox := [] } }, s'.outbox⟩ := by
  have meets := Op.meets_op sound now call
  rw [Op.Meets, run] at meets
  cases result with
  | ok answer => exact perform_of_ok serves.1 serves.2 run
  | error e =>
    obtain ⟨why, rfl, harmless⟩ :=
      meets.2.harmless fun kind f set => by simp [works kind] at set
    exact perform_of_refused serves.1 serves.2 harmless run

/-- After a request that leaves its imprint at another node, a request runs as it would have run
before. -/
lemma Reachable.perform_both (reached : c.Reachable Fault.refusals)
    (works : ∀ kind, c.state.store.fault kind = none) {a b : Call} {node node' : NodeId}
    (apart : node ≠ node') {result result' : Except Interruption Answer} {p p' : Imprint}
    (run : ∀ s', s'.Sound → c.state.SameAt node s' →
      (a.op now).run s' = (result, s'.imprint node p))
    (run' : ∀ s', s'.Sound → c.state.SameAt node' s' →
      (b.op now').run s' = (result', s'.imprint node' p')) :
    (c.perform now a).result = result ∧ (c.perform now a).commands = p.told c.state.handles ∧
      (c.perform now a).coordinator.perform now' b =
        ⟨result',
          { c with state := { (c.state.imprint node p).imprint node' p' with outbox := [] } },
          p'.told c.state.handles⟩ := by
  have led := perform_of_run reached.serves reached.sound works
    (run c.state reached.sound (.refl node _))
  have next : (c.perform now a).coordinator.Reachable Fault.refusals :=
    reached.perform now a fun kind f set => nomatch (works kind).symm.trans set
  have same : c.state.SameAt node' (c.perform now a).coordinator.state := by
    rw [led]
    exact (State.sameAt_imprint apart c.state p).with_outbox []
  have still : ∀ kind, (c.perform now a).coordinator.state.store.fault kind = none := by
    rw [same.fault]
    exact works
  have led' := perform_of_run next.serves next.sound still (run' _ next.sound same)
  refine ⟨by rw [led], ?_, led'.trans ?_⟩
  · rw [led]
    exact congrArg (· ++ p.told c.state.handles) reached.outbox_eq_nil
  · rw [led]
    rfl

/-- Two requests through handles that are open on different nodes, each at its own time and in the
name of whichever session, can be made in either order over a store that works: each gets the same
answer, the same tables and store are left, and every handle is told the same. -/
theorem Reachable.independent (reached : c.Reachable Fault.refusals)
    (works : ∀ kind, c.state.store.fault kind = none) {a b : Call} {i j : SessionId}
    {h k : HandleId} {r q : Handle} (first : a.Requests i h) (second : b.Requests j k)
    (opened : c.state.handles.get? h = some r) (opened' : c.state.handles.get? k = some q)
    (apart : r.node ≠ q.node) (now now' : Instant) :
    (c.perform now a).result = ((c.perform now' b).coordinator.perform now a).result ∧
    (c.perform now' b).result = ((c.perform now a).coordinator.perform now' b).result ∧
    ((c.perform now a).coordinator.perform now' b).coordinator =
      ((c.perform now' b).coordinator.perform now a).coordinator ∧
    ∀ handle, concerning handle ((c.perform now a).commands ++
        ((c.perform now a).coordinator.perform now' b).commands) =
      concerning handle ((c.perform now' b).commands ++
        ((c.perform now' b).coordinator.perform now a).commands) := by
  have sound := reached.sound
  obtain ⟨result, p, here, run⟩ := first.isLocal sound (works _) opened now
  obtain ⟨result', p', there, run'⟩ := second.isLocal sound (works _) opened' now'
  obtain ⟨answered, told, later⟩ := reached.perform_both works apart run run'
  obtain ⟨answered', told', later'⟩ := reached.perform_both works apart.symm run' run
  have tables := State.sameTables_imprint_comm (s := c.state) apart fun path r path' r' =>
    sound.linked.records_apart apart here there
  have same : ({ (c.state.imprint q.node p').imprint r.node p with outbox := [] } : State) =
      { (c.state.imprint r.node p).imprint q.node p' with outbox := [] } :=
    State.eq_of_sameTables
      ⟨tables.tree, tables.locks, tables.sessions, tables.handles, tables.store⟩ rfl
  rw [answered, answered', told, told', later, later', same]
  exact ⟨rfl, rfl, rfl, State.concerning_told_comm here there apart⟩

/-- Two clients want the lock of one file, and the one that waits has opened another file too. -/
def neighbours : Coordinator :=
  after [.createSession, .createSession, .openHandle ⟨1⟩ "/f" .create .all (.process "a"),
    .openHandle ⟨2⟩ "/f" .none .all (.process "b"),
    .openHandle ⟨2⟩ "/g" .create .all (.process "c"), .lock ⟨1⟩ ⟨1⟩ .exclusive,
    .lock ⟨2⟩ ⟨2⟩ .exclusive]

/-- The holder gives up its lock to the other client while that changes an attribute elsewhere. -/
theorem independent_neighbours : ∃ r q, neighbours.state.handles.get? ⟨1⟩ = some r ∧
    neighbours.state.handles.get? ⟨3⟩ = some q ∧ r.node ≠ q.node ∧
    ((neighbours.perform 5000000 (.release ⟨1⟩ ⟨1⟩)).coordinator.perform 9000000
      (.attrSet ⟨2⟩ ⟨3⟩ "hue" [8])).coordinator =
    ((neighbours.perform 9000000 (.attrSet ⟨2⟩ ⟨3⟩ "hue" [8])).coordinator.perform 5000000
      (.release ⟨1⟩ ⟨1⟩)).coordinator := by
  have reached : neighbours.Reachable Fault.refusals := reachable_after _
  have works : ∀ kind, neighbours.state.store.fault kind = none := by
    intro kind
    cases kind <;> decide +kernel
  have seat : (neighbours.state.handles.get? ⟨1⟩).map Handle.node = some ⟨2⟩ := by decide +kernel
  have seat' : (neighbours.state.handles.get? ⟨3⟩).map Handle.node = some ⟨3⟩ := by decide +kernel
  obtain ⟨r, opened, node⟩ := Option.map_eq_some_iff.mp seat
  obtain ⟨q, opened', node'⟩ := Option.map_eq_some_iff.mp seat'
  have apart : r.node ≠ q.node := by
    rw [node, node']
    decide
  have both := reached.independent works (.release ⟨1⟩ ⟨1⟩) (.attrSet ⟨2⟩ ⟨3⟩ "hue" [8]) opened
    opened' apart 5000000 9000000
  exact ⟨r, q, opened, opened', apart, both.2.2.1⟩

end Coordinator

end Coordination
