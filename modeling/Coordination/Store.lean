import Coordination.FinMap
import Coordination.Failure

/-!
# The store

Committed changes of the namespace are written to a store of byte strings that outlives the
coordinator. A store may refuse calls: a fault is set for one kind of call and answers every such
call until it is lifted. A call that a fault answers changes nothing.
-/

namespace Coordination

/-- Keys and values are byte strings. -/
abbrev Bytes := List UInt8

/-- One write of a batch. -/
inductive Write where
  | put (key value : Bytes)
  | delete (key : Bytes)
  deriving DecidableEq

/-- The pairs a store holds, in ascending key order. -/
abbrev Contents := FinMap Bytes Bytes

namespace Contents

/-- Applies one write. -/
def apply (c : Contents) : Write → Contents
  | .put key value => c.insert key value
  | .delete key => c.erase key

/-- Applies writes one after another. -/
def applyAll (c : Contents) (writes : List Write) : Contents := writes.foldl apply c

/-- The pairs whose key begins with `stem`: starting at the first key that is not below `stem`,
they end at the first key that does not begin with it. -/
def scan (c : Contents) (stem : Bytes) : List (Bytes × Bytes) :=
  (c.toList.dropWhile (fun b => b.1 < stem)).takeWhile (fun b => stem.isPrefixOf b.1)

end Contents

/-- Why an operation stops early: it is refused, or the store dies under it. -/
inductive Interruption where
  | refused (why : Failure)
  | crashed
  deriving DecidableEq

/-- How a store answers a call instead of executing it. -/
inductive Fault where
  | refuse (detail : String)
  | corrupt (detail : String)
  | crash
  deriving DecidableEq

/-- What the caller of a faulty store sees. -/
def Fault.interruption : Fault → Interruption
  | .refuse detail => .refused (.store detail)
  | .corrupt detail => .refused (.corrupted detail)
  | .crash => .crashed

/-- The four kinds of call to a store. -/
inductive StoreCall where
  | put
  | delete
  | scan
  | batch
  deriving DecidableEq

/-- A store: what it holds, and which calls it answers with a fault. -/
structure Store where
  contents : Contents
  fault : StoreCall → Option Fault

namespace Store

/-- A store that answers every call. -/
def ofContents (c : Contents) : Store := ⟨c, fun _ => none⟩

/-- Sets or lifts the fault of one kind of call. -/
def setFault (s : Store) (call : StoreCall) (fault : Option Fault) : Store :=
  { s with fault := fun c => if c = call then fault else s.fault c }

/-- Executes a call unless a fault answers it. -/
def call {α : Type} (s : Store) (kind : StoreCall) (answer : α) : Except Interruption α :=
  match s.fault kind with
  | some fault => .error fault.interruption
  | none => .ok answer

/-- Binds a key. -/
def put (s : Store) (key value : Bytes) : Except Interruption Store :=
  s.call .put { s with contents := s.contents.insert key value }

/-- Drops a key. -/
def delete (s : Store) (key : Bytes) : Except Interruption Store :=
  s.call .delete { s with contents := s.contents.erase key }

/-- The bindings whose keys begin with a stem. -/
def scan (s : Store) (stem : Bytes) : Except Interruption (List (Bytes × Bytes)) :=
  s.call .scan (s.contents.scan stem)

/-- Carries out writes all at once. -/
def batch (s : Store) (writes : List Write) : Except Interruption Store :=
  s.call .batch { s with contents := s.contents.applyAll writes }

end Store

end Coordination
