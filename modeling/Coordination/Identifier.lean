import Coordination.FinMap

/-!
# Identifiers

Nodes, sessions and handles are numbered separately. The kind of an identifier is part of its
type, so a handle number is never taken for a session number.
-/

namespace Coordination

/-- What an identifier stands for. -/
inductive Entity where
  | node
  | session
  | handle

/-- A numbered identifier of one kind. Numbers are not bounded: that a counter of 64 bits overflows
after as many allocations is left out. -/
structure Id (kind : Entity) where
  number : Nat
  deriving DecidableEq

/-- Identifies a node. -/
abbrev NodeId := Id .node

/-- Identifies a session. -/
abbrev SessionId := Id .session

/-- Identifies a handle. -/
abbrev HandleId := Id .handle

namespace Id

variable {kind : Entity}

/-- Identifiers are ordered by their numbers. -/
instance : LT (Id kind) := ⟨fun a b => a.number < b.number⟩

/-- The order of identifiers can be decided. -/
instance : DecidableLT (Id kind) := fun a b => inferInstanceAs (Decidable (a.number < b.number))

/-- The order of identifiers is that of numbers. -/
instance : StrictOrder (Id kind) where
  irrefl a := Nat.lt_irrefl a.number
  trans := fun {a b c} => @Nat.lt_trans a.number b.number c.number
  connected := fun {a b} h h' => by
    cases a
    cases b
    exact congrArg Id.mk (StrictOrder.connected h h')

/-- The identifier that follows. -/
def next (a : Id kind) : Id kind := ⟨a.number + 1⟩

/-- The next identifier comes later. -/
theorem lt_next (a : Id kind) : a < a.next := Nat.lt_succ_self a.number

end Id

/-- The root directory has the first node identifier. -/
def NodeId.root : NodeId := ⟨1⟩

end Coordination
