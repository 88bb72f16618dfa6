import Coordination.Endpoint.FrontDoor
import Coordination.Proofs.Coordinator.Runs
import Coordination.Proofs.Wire.Length

/-!
# Texts that operations pass on

The texts in what is refused and in what is announced are paths and names. They come from the
request, from the nodes, or from the store, so they are no longer than those. `Keeps` says so of a
program, and has one law for each building block.
-/

namespace Coordination

open Text

/-! ## Paths -/

/-- The name of a node is part of its path. -/
lemma Path.size_name (path : String) : Utf8.size (Path.name path) ≤ Utf8.size path := by
  have parts : path.toList = (path.toList.reverse.dropWhile (· ≠ '/')).reverse ++
      (path.toList.reverse.takeWhile (· ≠ '/')).reverse := by
    rw [← List.reverse_append, List.takeWhile_append_dropWhile, List.reverse_reverse]
  rw [Path.name, Utf8.size, Utf8.size, Utf8.encode, Utf8.encode, String.toList_ofList]
  conv_rhs => rw [parts, List.flatMap_append, List.length_append]
  exact Nat.le_add_left ..

/-- A path that is refused is repeated in the refusal, so the refusal is as short as the path. -/
lemma Path.brief_of_validate {bound : Nat} {path : String} {why : Failure}
    (short : Utf8.size path ≤ bound) (invalid : Path.validate path = .error why) :
    why.Brief bound := by
  unfold Path.validate at invalid
  split at invalid
  · cases invalid
  · obtain rfl := Except.error.inj invalid
    exact short

namespace Tree

/-- No path in the tree is longer. -/
def Brief (bound : Nat) (t : Tree) : Prop := ∀ id n, t.get? id = some n → Utf8.size n.path ≤ bound

variable {bound : Nat} {t t' : Tree} {id : NodeId} {n : Node} {path : String} {locks : LockTable}
variable {why : Failure}

/-- Changing nodes keeps the bound as long as they keep their paths. -/
lemma Brief.modify (brief : t.Brief bound) {f : Node → Node} (keeps : ∀ n, (f n).path = n.path) :
    (t.modify id f).Brief bound := by
  intro id' n' found'
  obtain ⟨n, found, rfl⟩ := FinMap.get?_modify_eq_some.mp found'
  split
  case isTrue => exact (keeps n).symm ▸ brief id' n found
  case isFalse => exact brief id' n found

/-- A node that goes takes no other path with it. -/
lemma Brief.erase (brief : t.Brief bound) : Brief bound { t with nodes := t.nodes.erase id } := by
  intro id' n' found
  have look : FinMap.get? (t.nodes.erase id) id' = some n' := found
  rw [FinMap.get?_erase] at look
  split at look
  · cases look
  · exact brief id' n' look

/-! ## Changes that are refused -/

/-- A failed look-up repeats the path that was looked up. -/
lemma brief_of_lookup (short : Utf8.size path ≤ bound) (failed : t.lookup path = .error why) :
    why.Brief bound := by
  rcases bind_eq_error.mp failed with invalid | ⟨_, -, rest⟩
  · exact Path.brief_of_validate short invalid
  · split at rest
    · obtain rfl := Except.error.inj rest
      exact short
    · cases rest

/-- A refusal to create a node repeats its path or that of its parent. -/
lemma Brief.of_checkCreate (brief : t.Brief bound) (short : Utf8.size path ≤ bound)
    (failed : t.checkCreate path = .error why) : why.Brief bound := by
  rcases bind_eq_error.mp failed with invalid | ⟨_, -, rest⟩
  · exact Path.brief_of_validate short invalid
  split at rest
  · obtain rfl := Except.error.inj rest
    exact short
  split at rest
  · obtain rfl := Except.error.inj rest
    exact short
  split at rest
  · obtain rfl := Except.error.inj rest
    exact short
  · rename_i id _ _ parent found
    split at rest
    · cases rest
    · obtain rfl := Except.error.inj rest
      exact brief id parent found

/-- A refusal to remove a node repeats its path. -/
lemma brief_of_checkRemove (short : Utf8.size path ≤ bound)
    (failed : t.checkRemove path locks = .error why) : why.Brief bound := by
  rcases bind_eq_error.mp failed with invalid | ⟨_, -, rest⟩
  · exact Path.brief_of_validate short invalid
  split at rest
  · obtain rfl := Except.error.inj rest
    exact short
  rcases bind_eq_error.mp rest with unknown | ⟨id, -, rest⟩
  · exact brief_of_lookup short unknown
  split at rest
  · obtain rfl := Except.error.inj rest
    exact short
  split at rest
  · obtain rfl := Except.error.inj rest
    exact short
  split at rest
  · obtain rfl := Except.error.inj rest
    exact short
  · cases rest

/-! ## Changes that are made -/

/-- A new node brings the path it was asked for. -/
lemma Brief.create (brief : t.Brief bound) (short : Utf8.size path ≤ bound) {isDir ephemeral : Bool}
    (created : t.create path isDir ephemeral = .ok (id, t')) : t'.Brief bound := by
  obtain ⟨above, -, made⟩ := bind_eq_ok.mp created
  obtain ⟨-, rfl⟩ := Prod.mk.inj (Except.ok.inj made)
  intro id' n' found
  have look : (t.grow above path isDir ephemeral).get? id' = some n' := found
  rw [get?_grow] at look
  split at look
  · obtain rfl := Option.some.inj look
    exact short
  · have entered : (t.modify above (·.addChild (Path.name path))).Brief bound :=
      brief.modify fun _ => rfl
    exact entered id' n' ((get?_modify _ id').trans look)

/-- Where creation fails the refusal is that of the checks, which is brief. -/
lemma Brief.of_create (brief : t.Brief bound) (short : Utf8.size path ≤ bound)
    {isDir ephemeral : Bool} (failed : t.create path isDir ephemeral = .error why) :
    why.Brief bound := by
  rcases bind_eq_error.mp failed with refused | ⟨_, -, rest⟩
  · exact brief.of_checkCreate short refused
  · cases rest

/-- The paths that are left were there before. -/
lemma Brief.remove (brief : t.Brief bound)
    (removed : t.remove path locks = .ok ((id, n), t')) : t'.Brief bound := by
  obtain ⟨id', -, rest⟩ := bind_eq_ok.mp removed
  split at rest
  · cases rest
  · obtain ⟨-, rfl⟩ := Prod.mk.inj (Except.ok.inj rest)
    cases FinMap.get? (t.index.erase path) (Path.parent path) with
    | none => exact brief.erase
    | some above => exact brief.erase.modify (f := (·.dropChild (Path.name path))) fun _ => rfl

/-- Where removal fails the refusal is that of the checks, which is brief. -/
lemma brief_of_remove (short : Utf8.size path ≤ bound) (failed : t.remove path locks = .error why) :
    why.Brief bound := by
  rcases bind_eq_error.mp failed with refused | ⟨id, -, rest⟩
  · exact brief_of_checkRemove short refused
  · split at rest
    · obtain rfl := Except.error.inj rest
      exact short
    · cases rest

end Tree

/-- An unknown handle is refused by its number. -/
lemma HandleTable.brief_of_get {bound : Nat} {t : HandleTable} {handle : HandleId} {why : Failure}
    (word : handle.number < 2 ^ 64) (failed : t.get handle = .error why) : why.Brief bound := by
  unfold HandleTable.get at failed
  split at failed
  · obtain rfl := Except.error.inj failed
    exact word
  · cases failed

/-- An unknown or expired session is refused by its number. -/
lemma SessionTable.brief_of_live {bound : Nat} {t : SessionTable} {session : SessionId}
    {why : Failure} (word : session.number < 2 ^ 64) (failed : t.live session = .error why) :
    why.Brief bound := by
  obtain rfl := eq_of_live_error failed
  exact word

/-- A contact is refused as the session is. -/
lemma SessionTable.brief_of_touch {bound : Nat} {t : SessionTable} {session : SessionId}
    {now : Instant} {why : Failure} (word : session.number < 2 ^ 64)
    (failed : t.touch session now = .error why) : why.Brief bound := by
  rcases bind_eq_error.mp failed with failed | ⟨_, -, rest⟩
  · exact brief_of_live word failed
  · cases rest

namespace LockTable

variable {bound : Nat} {t t' : LockTable} {node : NodeId} {session : SessionId} {handle : HandleId}
variable {mode : LockMode} {why : Failure}

/-- A request for a lock is refused by the number of the handle, if at all. -/
lemma brief_of_request (word : handle.number < 2 ^ 64)
    (failed : t.request node session handle mode = (.error why, t')) : why.Brief bound := by
  unfold request at failed
  split at failed
  · obtain rfl := Except.error.inj (Prod.mk.inj failed).1
    trivial
  dsimp only at failed
  split at failed
  · obtain rfl := Except.error.inj (Prod.mk.inj failed).1
    exact word
  split at failed <;> cases (Prod.mk.inj failed).1

/-- An attempt for a lock is refused by the number of the handle, if at all. -/
lemma brief_of_tryRequest (word : handle.number < 2 ^ 64)
    (failed : t.tryRequest node session handle mode = (.error why, t')) : why.Brief bound := by
  unfold tryRequest at failed
  split at failed
  · obtain rfl := Except.error.inj (Prod.mk.inj failed).1
    trivial
  dsimp only at failed
  split at failed
  · obtain rfl := Except.error.inj (Prod.mk.inj failed).1
    exact word
  split at failed
  · cases (Prod.mk.inj failed).1
  · obtain rfl := Except.error.inj (Prod.mk.inj failed).1
    trivial

/-- A release by somebody who does not hold the lock is refused by the number of the handle. -/
lemma brief_of_release (word : handle.number < 2 ^ 64)
    (failed : t.release node handle = .error why) : why.Brief bound := by
  unfold release at failed
  split at failed
  · obtain rfl := Except.error.inj failed
    exact word
  · cases failed

end LockTable

/-! ## Tables -/

/-- A refusal names no longer text. -/
def Interruption.Brief (bound : Nat) (e : Interruption) : Prop :=
  ∀ why, e = .refused why → why.Brief bound

/-- The texts in the tables, in the announcements and in the faults of the store are no longer. -/
structure State.Brief (bound : Nat) (s : State) : Prop where
  paths : s.tree.Brief bound
  news : ∀ event callback, .deliver event callback ∈ s.outbox →
    Wire.nameSize event.notification ≤ bound
  faults : ∀ kind f, s.store.fault kind = some f → f.interruption.Brief bound

namespace State

variable {bound : Nat} {s : State} {handle : HandleId} {n : Notification} {node : NodeId}

/-- Locks, sessions and handles hold no texts. -/
lemma Brief.aside (brief : s.Brief bound) {locks : LockTable} {sessions : SessionTable}
    {handles : HandleTable} : Brief bound { s with locks, sessions, handles } :=
  ⟨brief.paths, brief.news, brief.faults⟩

/-- The tables stay brief with another tree that is. -/
lemma Brief.with_tree (brief : s.Brief bound) {tree : Tree} (paths : tree.Brief bound) :
    Brief bound { s with tree } :=
  ⟨paths, brief.news, brief.faults⟩

/-- A command may be handed over if it carries a short name. -/
lemma Brief.send (brief : s.Brief bound) {c : Command}
    (short : ∀ event callback, c = .deliver event callback →
      Wire.nameSize event.notification ≤ bound) : (s.send c).Brief bound := by
  refine ⟨brief.paths, fun event callback mem => ?_, brief.faults⟩
  rcases List.mem_append.mp mem with mem | mem
  · exact brief.news event callback mem
  · exact short event callback (List.mem_singleton.mp mem).symm

/-- The end of a handle carries no name. -/
lemma Brief.retire (brief : s.Brief bound) : (s.send (.retire handle)).Brief bound :=
  brief.send nofun

/-- What a handle is told of a short name is short. -/
lemma Brief.tell (brief : s.Brief bound) (short : Wire.nameSize n ≤ bound) :
    (s.tell handle n).Brief bound := by
  unfold State.tell
  split
  · exact brief
  split
  · refine brief.send ?_
    rintro event callback ⟨⟩
    exact short
  · exact brief

/-- What every step of a loop keeps the loop keeps. -/
lemma Brief.foldl {α : Type} {f : State → α → State} (brief : s.Brief bound)
    (each : ∀ (s : State) a, s.Brief bound → (f s a).Brief bound) (list : List α) :
    (list.foldl f s).Brief bound := by
  induction list generalizing s with
  | nil => exact brief
  | cons a rest ih => exact ih (each s a brief)

/-- What all handles on a node are told of a short name is short. -/
lemma Brief.tellAll (brief : s.Brief bound) (short : Wire.nameSize n ≤ bound) :
    (s.tellAll node n).Brief bound := by
  unfold State.tellAll
  split
  · exact brief
  · exact brief.foldl (fun s h brief => brief.tell short) _

/-- Waiters that are served are told no name. -/
lemma Brief.promote (brief : s.Brief bound) : (s.promote node).Brief bound := by
  have served : ∀ (s : State) g, s.Brief bound → (s.welcome g).Brief bound := fun s g brief =>
    Brief.tell brief.aside (Nat.zero_le _)
  have start : Brief bound { s with locks := (s.locks.promote node).2 } := brief.aside
  exact start.foldl served _

/-- Nobody is told a name when a stale handle goes. -/
lemma Brief.dropStale (brief : s.Brief bound) : (s.dropStale handle).Brief bound := by
  unfold State.dropStale
  split
  · exact brief
  · exact Brief.retire brief.aside

end State

namespace Op

variable {α β : Type} {bound : Nat} {strict : Prop} {Q : α → Prop}

/-- The texts stay as short as they are. If it is strict, the program is interrupted for a reason
that is short as well, unless it finds a contradiction. -/
def Keeps (bound : Nat) (strict : Prop) (op : Op α) (Q : α → Prop) : Prop :=
  ∀ s : State, s.Brief bound → op.Meets s (fun a s' => s'.Brief bound ∧ Q a) fun e s' =>
    s'.Brief bound ∧ (strict → ∀ why, e = .refused why → why.IsFatal ∨ why.Brief bound)

/-! ## Building blocks -/

/-- A result that is fine is fine. -/
lemma Keeps.pure {a : α} (fine : Q a) : Keeps bound strict (pure a) Q :=
  fun _ brief => (meets_pure a).mpr ⟨brief, fine⟩

/-- Two programs in a row, the second of which may rely on the result of the first. -/
lemma Keeps.bind {x : Op α} {f : α → Op β} {Q' : β → Prop} (first : Keeps bound strict x Q)
    (next : ∀ a, Q a → Keeps bound strict (f a) Q') :
    Keeps bound strict (x >>= f) Q' := by
  intro s brief
  refine meets_bind.mpr ((first s brief).imp ?_ fun _ _ => id)
  exact fun a s' kept => next a kept.2 s' kept.1

/-- A result may be changed on the way. -/
lemma Keeps.map {x : Op α} {f : α → β} {Q' : β → Prop} (first : Keeps bound strict x Q)
    (fine : ∀ a, Q a → Q' (f a)) : Keeps bound strict (f <$> x) Q' := by
  intro s brief
  exact meets_map.mpr ((first s brief).imp (fun a s' kept => ⟨kept.1, fine a kept.2⟩) fun _ _ => id)

/-- Where refusals need not be short there is less to prove. -/
lemma Keeps.of_lax {op : Op α} (keeps : Keeps bound False op Q) (lax : ¬ strict) :
    Keeps bound strict op Q :=
  fun s brief => (keeps s brief).imp (fun _ _ => id) fun _ _ kept => ⟨kept.1, (absurd · lax)⟩

/-- Looking at the tables shows that they are brief. -/
lemma keeps_get : Keeps bound strict get (State.Brief bound) :=
  fun _ brief => meets_get.mpr ⟨brief, brief⟩

/-- A change of the tables that keeps them brief. -/
lemma keeps_modify {f : State → State} (keeps : ∀ s, s.Brief bound → (f s).Brief bound) :
    Keeps bound strict (modify f) fun _ => True :=
  fun s brief => meets_modify.mpr ⟨keeps s brief, trivial⟩

/-- A change of the tables that keeps them brief, with something to follow. -/
lemma keeps_modify_bind {f : State → State} {rest : Op α}
    (keeps : ∀ s, s.Brief bound → (f s).Brief bound) (next : Keeps bound strict rest Q) :
    Keeps bound strict (modify f >>= fun _ => rest) Q :=
  (keeps_modify keeps).bind fun _ _ => next

/-- A refusal must be short, if that is asked for. -/
lemma keeps_refuse {why : Failure} (short : strict → why.IsFatal ∨ why.Brief bound) :
    Keeps bound strict (refuse why : Op α) Q := by
  refine fun s brief => ⟨brief, fun strict why' eq => ?_⟩
  obtain rfl := Interruption.refused.inj eq
  exact short strict

/-- A check gives a fine result or a short refusal. -/
lemma keeps_ofExcept {x : Except Failure α} (fine : ∀ a, x = .ok a → Q a)
    (short : strict → ∀ why, x = .error why → why.Brief bound) :
    Keeps bound strict (ofExcept x) Q := by
  cases x with
  | ok a => exact .pure (fine a rfl)
  | error why => exact keeps_refuse fun strict => .inr (short strict why rfl)

/-- A check whose result does not matter. -/
lemma keeps_check {x : Except Failure α} (short : strict → ∀ why, x = .error why → why.Brief bound) :
    Keeps bound strict (ofExcept x) fun _ => True :=
  keeps_ofExcept (fun _ _ => trivial) short

/-- A call to the store changes what the store holds, unless a fault answers it. -/
lemma keeps_store {call : Store → Except Interruption Store} {kind : StoreCall}
    {change : Store → Contents} (calls : ∀ st, call st = st.call kind ⟨change st, st.fault⟩) :
    Keeps bound strict (store call) fun _ => True := by
  refine fun s brief => meets_store.mpr ?_
  rw [calls]
  cases set : s.store.fault kind with
  | none =>
    rw [Store.call_eq_ok.mpr ⟨set, rfl⟩]
    constructor <;> rintro _ ⟨⟩
    exact ⟨⟨brief.paths, brief.news, brief.faults⟩, trivial⟩
  | some f =>
    rw [Store.call_of_fault set]
    constructor <;> rintro _ ⟨⟩
    exact ⟨brief, fun _ why eq => .inr (brief.faults kind f set why eq)⟩

/-- A call to the store may be made under a condition. -/
lemma keeps_ite_store {c : Prop} [Decidable c] {call : Store → Except Interruption Store}
    {rest : Op α} (calls : Keeps bound strict (store call) fun _ => True)
    (next : Keeps bound strict rest Q) :
    Keeps bound strict (if c then store call >>= fun _ => rest else rest) Q := by
  split
  · exact calls.bind fun _ _ => next
  · exact next

/-- A loop keeps what its body keeps. -/
lemma keeps_forM {γ : Type} {f : γ → Op PUnit} {list : List γ}
    (each : ∀ a, Keeps bound strict (f a) fun _ => True) :
    Keeps bound strict (list.forM f) fun _ => True := by
  induction list with
  | nil => exact .pure trivial
  | cons a rest ih => exact (each a).bind fun _ _ => ih

/-! ## Sessions and handles -/

section Programs

variable {now : Instant} {session caller : SessionId} {handle : HandleId} {id : NodeId}
variable {path : String}

/-- A caller that is not live is refused by its number. -/
lemma keeps_touch (word : session.number < 2 ^ 64) :
    Keeps bound strict (touch session now) fun _ => True := by
  refine keeps_get.bind fun s _ => (keeps_check ?_).bind fun t _ => ?_
  · exact fun _ why failed => SessionTable.brief_of_touch word failed
  · exact keeps_modify fun s brief => brief.aside

/-- A handle that is unknown or belongs to somebody else is refused by its number. -/
lemma keeps_nodeOf (word : caller.number < 2 ^ 64) (word' : handle.number < 2 ^ 64) :
    Keeps bound strict (nodeOf caller handle now) fun _ => True := by
  refine (keeps_touch word).bind fun _ _ => keeps_get.bind fun s _ => ?_
  refine (keeps_check ?_).bind fun h _ => ?_
  · exact fun _ why failed => HandleTable.brief_of_get word' failed
  · split
    · exact keeps_refuse fun _ => .inr word'
    · exact .pure trivial

/-- A node that is found has a short path; a missing one is corruption. -/
lemma keeps_node : Keeps bound strict (node id) fun n => Utf8.size n.path ≤ bound := by
  refine keeps_get.bind fun s brief => ?_
  split
  · rename_i n found
    exact .pure (brief.paths id n found)
  · exact keeps_refuse fun _ => .inl ⟨_, rfl⟩

/-- A contradictory lock is corruption. -/
lemma keeps_checkLock : Keeps bound strict (checkLock id) fun _ => True := by
  refine keeps_get.bind fun s _ => ?_
  unfold LockTable.check
  split
  · exact .pure trivial
  · exact keeps_refuse fun _ => .inl ⟨_, rfl⟩

/-! ## Nodes -/

/-- Writing to the store tells nobody anything. -/
lemma keeps_put {key value : Bytes} :
    Keeps bound strict (store (·.put key value)) fun _ => True :=
  keeps_store fun _ => rfl

/-- Discarding from the store tells nobody anything. -/
lemma keeps_discard {key : Bytes} : Keeps bound strict (store (·.delete key)) fun _ => True :=
  keeps_store fun _ => rfl

/-- The handles on a node are told a short name. -/
lemma keeps_tellAll {n : Notification} (short : Wire.nameSize n ≤ bound) :
    Keeps bound strict (modify (·.tellAll id n)) fun _ => True :=
  keeps_modify fun _ brief => brief.tellAll short

/-- Writing a record back changes no path. -/
lemma keeps_persist {change : Record → Record} :
    Keeps bound strict (persist id change) fun _ => True := by
  refine keeps_get.bind fun s _ => ?_
  split
  · exact .pure trivial
  · exact keeps_node.bind fun n _ => keeps_put

/-- A node is created under a short path, or refused by one. -/
lemma keeps_createNode (short : Utf8.size path ≤ bound) {isDir ephemeral : Bool} :
    Keeps bound strict (createNode path isDir ephemeral) fun _ => True := by
  have told : Utf8.size (Path.name path) ≤ bound := (Path.size_name path).trans short
  refine keeps_get.bind fun s brief => ?_
  refine (keeps_check ?_).bind fun _ _ => ?_
  · exact fun _ why failed => brief.paths.of_checkCreate short failed
  refine keeps_ite_store keeps_put (keeps_get.bind fun s brief => ?_)
  refine (keeps_ofExcept (Q := fun a => a.2.Brief bound) ?_ ?_).bind fun a fine => ?_
  · exact fun a created => brief.paths.create short created
  · exact fun _ why failed => brief.paths.of_create short failed
  refine keeps_modify_bind (fun s brief => brief.with_tree fine) ?_
  split
  · exact .pure trivial
  · exact (keeps_tellAll (n := .childAdded _) told).bind fun _ _ => .pure trivial

/-- A node is removed under a short path, or refused by one. -/
lemma keeps_removeNode (short : Utf8.size path ≤ bound) :
    Keeps bound strict (removeNode path) fun _ => True := by
  have told : Utf8.size (Path.name path) ≤ bound := (Path.size_name path).trans short
  refine keeps_get.bind fun s brief => ?_
  refine (keeps_check ?_).bind fun i _ => ?_
  · exact fun _ why failed => Tree.brief_of_checkRemove short failed
  refine keeps_ite_store keeps_discard ?_
  refine (keeps_ofExcept (Q := fun a => a.2.Brief bound) ?_ ?_).bind fun a fine => ?_
  · rintro ⟨⟨_, n⟩, tree⟩ removed
    exact brief.paths.remove removed
  · exact fun _ why failed => Tree.brief_of_remove short failed
  refine keeps_modify_bind (fun s brief => ⟨fine, brief.news, brief.faults⟩) ?_
  refine keeps_modify_bind (fun s brief => brief.foldl (fun s h brief => brief.dropStale) _) ?_
  refine keeps_get.bind fun s _ => ?_
  split
  · exact .pure trivial
  · exact keeps_tellAll told

/-- Reaping announces only names of nodes that were there. -/
lemma keeps_reapFrom (k : Nat) : Keeps bound strict (reapFrom k id) fun _ => True := by
  induction k generalizing id with
  | zero => exact .pure trivial
  | succ k ih =>
    refine keeps_get.bind fun s brief => ?_
    split
    · exact .pure trivial
    · rename_i path idle
      obtain ⟨n, found, rfl, -⟩ := (State.idleEphemeral?_eq_some path).mp idle
      refine (keeps_removeNode (brief.paths id n found)).bind fun _ _ => ?_
      refine keeps_get.bind fun s _ => ?_
      split
      · exact .pure trivial
      · exact ih

/-- The whole climb announces only names of nodes that were there. -/
lemma keeps_reap : Keeps bound strict (reap id) fun _ => True := by
  refine keeps_get.bind fun s _ => ?_
  split
  · exact .pure trivial
  · exact keeps_reapFrom _

/-- Closing a handle refuses by number and announces names of nodes. -/
lemma keeps_detach (word : strict → handle.number < 2 ^ 64) :
    Keeps bound strict (detach handle) fun _ => True := by
  refine keeps_get.bind fun s _ => ?_
  refine (keeps_check ?_).bind fun a _ => ?_
  · intro strict why failed
    rcases bind_eq_error.mp failed with unknown | ⟨_, -, rest⟩
    · exact HandleTable.brief_of_get (word strict) unknown
    · cases rest
  refine keeps_modify_bind (fun s brief => ?_) (keeps_modify_bind (fun s brief => ?_) keeps_reap)
  · exact State.Brief.retire brief.aside
  · exact brief.with_tree (brief.paths.modify fun _ => rfl)

/-! ## Sessions -/

/-- What interrupts the end of a session may be anything. -/
lemma keeps_surrender (touched : FinSet NodeId) (list : List HandleId) :
    Keeps bound False (surrender touched list) fun _ => True := by
  induction list generalizing touched with
  | nil => exact .pure trivial
  | cons h rest ih =>
    refine keeps_get.bind fun s _ => ?_
    split
    · exact ih touched
    split
    · refine (keeps_check False.elim).bind fun a _ => ?_
      refine keeps_modify_bind (fun s brief => ?_) (ih _)
      exact State.Brief.tell brief.aside (Nat.zero_le _)
    split
    · exact ih touched
    · exact keeps_modify_bind (fun s brief => brief.aside) (ih _)

/-- The end of a session refuses nothing briefly, but keeps the tables brief. -/
lemma keeps_teardown : Keeps bound False (teardown session) fun _ => True := by
  refine keeps_get.bind fun s _ => (keeps_surrender _ _).bind fun touched _ => ?_
  refine keeps_modify_bind (fun s brief => brief.aside) ?_
  refine keeps_modify_bind (fun s brief => brief.foldl (fun s k brief => brief.promote) _) ?_
  refine (keeps_forM fun _ => keeps_checkLock).bind fun _ _ => ?_
  refine (keeps_forM fun _ => keeps_detach nofun).bind fun _ _ => ?_
  exact keeps_modify fun s brief => brief.aside

/-- Ending a session by request keeps the tables brief. -/
lemma keeps_destroySession : Keeps bound False (destroySession session) fun _ => True := by
  refine keeps_get.bind fun s _ => ?_
  refine (keeps_check nofun).bind fun t _ => ?_
  exact keeps_modify_bind (fun s brief => brief.aside) keeps_teardown

/-- A session is created without a word. -/
lemma keeps_createSession : Keeps bound strict (createSession now) fun _ => True := by
  refine keeps_get.bind fun s _ => ?_
  exact keeps_modify_bind (fun s brief => brief.aside) (.pure trivial)

/-- Only the session itself is refused. -/
lemma keeps_keepalive (word : session.number < 2 ^ 64) :
    Keeps bound strict (keepalive session now) fun _ => True := by
  refine keeps_get.bind fun s _ => ?_
  refine (keeps_check ?_).bind fun a _ => ?_
  · intro _ why failed
    rcases bind_eq_error.mp failed with failed | ⟨t, -, failed⟩
    · exact SessionTable.brief_of_touch word failed
    · rcases bind_eq_error.mp failed with failed | ⟨_, -, rest⟩
      · exact SessionTable.brief_of_live word (map_eq_error.mp failed)
      · cases rest
  · exact keeps_modify_bind (fun s brief => brief.aside) (.pure trivial)

/-! ## Opening and closing -/

/-- A path is resolved to a node, which is created if need be. -/
lemma keeps_resolve (short : Utf8.size path ≤ bound) {flags : OpenFlags} :
    Keeps bound strict (resolve path flags) fun _ => True := by
  refine keeps_get.bind fun s brief => ?_
  split
  · split
    · exact keeps_refuse fun _ => .inr short
    · exact .pure trivial
  · rename_i missing failed
    split
    · exact keeps_createNode short
    · exact keeps_refuse fun _ => .inr (Tree.brief_of_lookup short failed)
  · rename_i why _ failed
    exact keeps_refuse fun _ => .inr (Tree.brief_of_lookup short failed)

/-- A path that is refused is repeated. -/
lemma keeps_validate (short : Utf8.size path ≤ bound) :
    Keeps bound strict (ofExcept (Path.validate path)) fun _ => True :=
  keeps_check fun _ _ failed => Path.brief_of_validate short failed

/-- Opening a handle repeats the path at most. -/
lemma keeps_openHandle (word : session.number < 2 ^ 64) (short : Utf8.size path ≤ bound)
    {flags : OpenFlags} {interest : Interest} {callback : Callback} :
    Keeps bound strict (openHandle session path flags interest callback now) fun _ => True := by
  refine (keeps_touch word).bind fun _ _ => (keeps_validate short).bind fun _ _ => ?_
  refine (keeps_resolve short).bind fun node _ => keeps_get.bind fun s _ => ?_
  refine keeps_modify_bind (fun s brief => brief.aside) ?_
  refine keeps_modify_bind (fun s brief => brief.with_tree (brief.paths.modify fun _ => rfl)) ?_
  exact keeps_modify_bind (fun s brief => brief.aside) (.pure trivial)

/-- A handle gives up a lock. -/
lemma keeps_giveUp (word : handle.number < 2 ^ 64) {t : LockTable} {node : NodeId} :
    Keeps bound strict (ofExcept (t.release node handle)) fun _ => True :=
  keeps_check fun _ _ failed => LockTable.brief_of_release word failed

/-- Closing one repeats its number at most. -/
lemma keeps_close (word : caller.number < 2 ^ 64) (word' : handle.number < 2 ^ 64) :
    Keeps bound strict (close caller handle now) fun _ => True := by
  refine (keeps_nodeOf word word').bind fun node _ => keeps_get.bind fun s _ => ?_
  have rest : Keeps bound strict (checkLock node >>= fun _ => detach handle) fun _ => True :=
    keeps_checkLock.bind fun _ _ => keeps_detach fun _ => word'
  split
  · refine (keeps_giveUp word').bind fun a _ => ?_
    refine keeps_modify_bind (fun s brief => brief.aside) ?_
    refine keeps_modify_bind (fun s brief => brief.tell (Nat.zero_le _)) ?_
    exact keeps_modify_bind (fun s brief => brief.promote) rest
  split
  · exact rest
  · refine keeps_modify_bind (fun s brief => ?_) rest
    exact State.Brief.promote brief.aside

/-! ## Nodes and attributes -/

/-- Creating a directory repeats the path at most. -/
lemma keeps_mkdir (word : session.number < 2 ^ 64) (short : Utf8.size path ≤ bound) :
    Keeps bound strict (mkdir session path now) fun _ => True :=
  (keeps_touch word).bind fun _ _ => (keeps_createNode short).bind fun _ _ => .pure trivial

/-- Deleting a node repeats its path at most. -/
lemma keeps_delete (word : session.number < 2 ^ 64) (short : Utf8.size path ≤ bound) :
    Keeps bound strict (delete session path now) fun _ => True := by
  refine (keeps_touch word).bind fun _ _ => (keeps_validate short).bind fun _ _ => ?_
  refine keeps_get.bind fun s _ => (keeps_removeNode short).bind fun _ _ => ?_
  split
  · exact .pure trivial
  · exact keeps_reap

/-- Asking for a path announces nothing. -/
lemma keeps_pathExists (word : session.number < 2 ^ 64) :
    Keeps bound strict (pathExists session path now) fun _ => True :=
  (keeps_touch word).bind fun _ _ => keeps_get.bind fun _ _ => .pure trivial

/-- What is asked of the node of a handle. -/
lemma keeps_seat (word : caller.number < 2 ^ 64) (word' : handle.number < 2 ^ 64) {f : Node → Op α}
    (next : ∀ n, Keeps bound strict (f n) fun _ => True) :
    Keeps bound strict (nodeOf caller handle now >>= fun id => node id >>= f) fun _ => True :=
  (keeps_nodeOf word word').bind fun _ _ => keeps_node.bind fun n _ => next n

/-- Setting an attribute announces its name. -/
lemma keeps_attrSet (word : caller.number < 2 ^ 64) (word' : handle.number < 2 ^ 64) {name : String}
    (short : Utf8.size name ≤ bound) {value : Bytes} :
    Keeps bound strict (attrSet caller handle name value now) fun _ => True := by
  refine (keeps_nodeOf word word').bind fun id _ => keeps_persist.bind fun _ _ => ?_
  refine keeps_modify_bind (fun s brief => brief.with_tree (brief.paths.modify fun _ => rfl)) ?_
  exact keeps_tellAll short

/-- Deleting one announces its name or repeats it. -/
lemma keeps_attrDel (word : caller.number < 2 ^ 64) (word' : handle.number < 2 ^ 64) {name : String}
    (short : Utf8.size name ≤ bound) :
    Keeps bound strict (attrDel caller handle name now) fun _ => True := by
  refine (keeps_nodeOf word word').bind fun id _ => keeps_node.bind fun n _ => ?_
  split
  · exact keeps_refuse fun _ => .inr short
  refine keeps_persist.bind fun _ _ => ?_
  refine keeps_modify_bind (fun s brief => brief.with_tree (brief.paths.modify fun _ => rfl)) ?_
  exact keeps_tellAll short

/-- Reading one repeats its name at most. -/
lemma keeps_attrGet (word : caller.number < 2 ^ 64) (word' : handle.number < 2 ^ 64) {name : String}
    (short : Utf8.size name ≤ bound) :
    Keeps bound strict (attrGet caller handle name now) fun _ => True := by
  refine keeps_seat word word' fun n => ?_
  split
  · exact keeps_refuse fun _ => .inr short
  · exact .pure trivial

/-! ## Locks -/

/-- A grant is noted and announced without a name. -/
lemma keeps_granted {node : NodeId} :
    Keeps bound strict (granted session node handle) fun _ => True :=
  keeps_modify_bind (fun _ brief => brief.aside)
    (keeps_modify fun _ brief => brief.tell (Nat.zero_le _))

/-- A request for a lock is refused by number at most. -/
lemma keeps_lock (word : caller.number < 2 ^ 64) (word' : handle.number < 2 ^ 64)
    {mode : LockMode} : Keeps bound strict (lock caller handle mode now) fun _ => True := by
  refine (keeps_nodeOf word word').bind fun node _ => keeps_get.bind fun s _ => ?_
  cases request : s.locks.request node caller handle mode with
  | mk result locks =>
    refine keeps_modify_bind (fun s brief => brief.aside) ?_
    refine (keeps_check ?_).bind fun status _ => ?_
    · rintro _ why rfl
      exact LockTable.brief_of_request word' request
    cases status with
    | granted =>
      exact keeps_granted.bind fun _ _ => keeps_checkLock.bind fun _ _ => .pure trivial
    | queued => exact keeps_checkLock.bind fun _ _ => .pure trivial

/-- An attempt for a lock is refused by number at most. -/
lemma keeps_tryLock (word : caller.number < 2 ^ 64) (word' : handle.number < 2 ^ 64)
    {mode : LockMode} : Keeps bound strict (tryLock caller handle mode now) fun _ => True := by
  refine (keeps_nodeOf word word').bind fun node _ => keeps_get.bind fun s _ => ?_
  cases request : s.locks.tryRequest node caller handle mode with
  | mk result locks =>
    refine keeps_modify_bind (fun s brief => brief.aside) ?_
    refine (keeps_check ?_).bind fun status _ => ?_
    · rintro _ why rfl
      exact LockTable.brief_of_tryRequest word' request
    · exact keeps_granted.bind fun _ _ => keeps_checkLock.bind fun _ _ => .pure trivial

/-- A release is refused by number at most. -/
lemma keeps_release (word : caller.number < 2 ^ 64) (word' : handle.number < 2 ^ 64) :
    Keeps bound strict (release caller handle now) fun _ => True := by
  refine (keeps_nodeOf word word').bind fun node _ => keeps_get.bind fun s _ => ?_
  refine (keeps_giveUp word').bind fun a _ => ?_
  refine keeps_modify_bind (fun s brief => brief.aside) ?_
  refine keeps_modify_bind (fun s brief => brief.tell (Nat.zero_le _)) ?_
  exact keeps_modify_bind (fun s brief => brief.promote) keeps_checkLock

/-! ## Requests -/

/-- Counting refuses nothing. -/
lemma keeps_sizes : Keeps bound strict sizes fun _ => True :=
  keeps_get.bind fun _ _ => .pure trivial

/-- A request keeps the texts as short as its own. The end of a session apart, what refuses it is
short as well. -/
lemma keeps_request (r : Wire.Request) (callback : Callback) (now : Instant)
    (short : r.textSize ≤ bound) :
    Keeps bound (∀ session, r ≠ .destroySession session) ((r.call callback).op now)
      fun _ => True := by
  have word : ∀ n : UInt64, n.toNat < 2 ^ 64 := fun n => n.toNat_lt
  cases r with
  | createSession => exact keeps_createSession.bind fun _ _ => .pure trivial
  | keepalive session => exact (keeps_keepalive (word session)).map fun _ _ => trivial
  | destroySession session =>
    have keeps : Keeps bound False (destroySession ⟨session.toNat⟩) fun _ => True :=
      keeps_destroySession
    exact (keeps.bind fun _ _ => .pure trivial).of_lax fun strict => strict session rfl
  | «open» session => exact (keeps_openHandle (word session) short).map fun _ _ => trivial
  | close session handle =>
    exact (keeps_close (word session) (word handle)).bind fun _ _ => .pure trivial
  | mkdir session => exact (keeps_mkdir (word session) short).bind fun _ _ => .pure trivial
  | delete session => exact (keeps_delete (word session) short).bind fun _ _ => .pure trivial
  | «exists» session => exact (keeps_pathExists (word session)).map fun _ _ => trivial
  | readdir session handle | attrList session handle | attrExists session handle =>
    exact (keeps_seat (word session) (word handle) fun _ => .pure trivial).map fun _ _ => trivial
  | attrSet session handle =>
    exact (keeps_attrSet (word session) (word handle) short).bind fun _ _ => .pure trivial
  | attrGet session handle =>
    exact (keeps_attrGet (word session) (word handle) short).map fun _ _ => trivial
  | attrDel session handle =>
    exact (keeps_attrDel (word session) (word handle) short).bind fun _ _ => .pure trivial
  | lock session handle => exact (keeps_lock (word session) (word handle)).map fun _ _ => trivial
  | tryLock session handle =>
    exact (keeps_tryLock (word session) (word handle)).map fun _ _ => trivial
  | release session handle =>
    exact (keeps_release (word session) (word handle)).bind fun _ _ => .pure trivial
  | status => exact keeps_sizes.map fun _ _ => trivial

/-- The end of a session is refused only if there is no such session. -/
lemma brief_of_run_destroySession {s s' : State} (sound : s.Sound) (word : session.number < 2 ^ 64)
    {e : Interruption} (run : (Call.op now (.destroySession session)).run s = (.error e, s')) :
    e.Brief bound := by
  cases looked : s.sessions.live session with
  | ok x =>
    have live : s.Live session := ⟨x, SessionTable.live_eq_ok.mp looked⟩
    rw [run_destroySession sound live] at run
    cases run
  | error why =>
    have refused : (Call.op now (.destroySession session)).run s = (.error (.refused why), s) := by
      rw [Call.op, run_bind, destroySession, run_get_bind, SessionTable.expire, looked]
      rfl
    obtain rfl := Except.error.inj (Prod.mk.inj (refused.symm.trans run)).1
    rintro _ ⟨⟩
    exact SessionTable.brief_of_live word looked

end Programs

end Op

/-! ## What is answered and announced -/

namespace Coordinator

variable {c : Coordinator} {bound : Nat} {r : Wire.Request} {now : Instant} {callback : Callback}

/-- What a request announces is no longer than the texts in the request and in the tables. -/
lemma brief_of_commands (brief : c.state.Brief bound) (short : r.textSize ≤ bound) {event : Event}
    {owner : Callback} (told : .deliver event owner ∈ (c.perform now (r.call callback)).commands) :
    Wire.nameSize event.notification ≤ bound := by
  have keeps := Op.keeps_request r callback now short c.state brief
  cases run : ((r.call callback).op now).run c.state with
  | mk result s' =>
    have after : s'.Brief bound := by
      rw [Op.Meets, run] at keeps
      cases result <;> exact keeps.1
    rcases commands_of_run run with silent | announced
    · rw [silent] at told
      cases told
    · rw [announced] at told
      exact after.news event owner told

/-- Nor is what refuses it, and it names no other number than those in the request. -/
lemma brief_of_refusal (sound : c.state.Sound) (brief : c.state.Brief bound)
    (short : r.textSize ≤ bound) (room : 32 ≤ bound) {why : Failure}
    (refused : (c.perform now (r.call callback)).result = .error (.refused why)) :
    why.Brief bound := by
  rcases error_of_perform sound refused with halted | poisoned | ⟨s', run, -, plain⟩
  · obtain rfl := Interruption.refused.inj halted
    exact le_trans (by decide) room
  · obtain rfl := Interruption.refused.inj poisoned
    exact le_trans (by decide) room
  generalize eq : Interruption.refused why = e at plain
  cases plain with
  | @faulty kind f set => exact brief.faults kind f set why eq.symm
  | refused harmless =>
    obtain rfl := Interruption.refused.inj eq
    refine Or.resolve_left ?_ harmless
    by_cases ends : ∃ session, r = .destroySession session
    · obtain ⟨session, rfl⟩ := ends
      exact .inr (Op.brief_of_run_destroySession sound session.toNat_lt run why rfl)
    · have keeps := Op.keeps_request r callback now short c.state brief
      rw [Op.Meets, run] at keeps
      exact keeps.2 (fun session eq => ends ⟨session, eq⟩) why rfl

end Coordinator

end Coordination
