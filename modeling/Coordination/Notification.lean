/-!
# Notifications and interest

A notification says what happened at the node of one handle. Every kind of notification has a bit,
and a handle names the kinds it wants by an `Interest`: a set of those bits, without unknown ones.
-/

namespace Coordination

/-- A set of kinds of notification. -/
structure Interest where
  bits : UInt32
  deriving DecidableEq

namespace Interest

/-- No news at all. -/
def none : Interest := ⟨0⟩

/-- News of attributes that are set. -/
def attrSet : Interest := ⟨0x01⟩

/-- News of attributes that are deleted. -/
def attrDel : Interest := ⟨0x02⟩

/-- News of children that are added. -/
def childAdded : Interest := ⟨0x04⟩

/-- News of children that are removed. -/
def childRemoved : Interest := ⟨0x08⟩

/-- News of the lock being acquired. -/
def lockAcquired : Interest := ⟨0x10⟩

/-- News of the lock being released. -/
def lockReleased : Interest := ⟨0x20⟩

/-- All news there is. -/
def all : Interest := ⟨0x3f⟩

/-- Keeps the bits that stand for a kind and drops the others. -/
def ofBits (bits : UInt32) : Interest := ⟨bits &&& all.bits⟩

/-- The kinds of either set. -/
def union (a b : Interest) : Interest := ⟨a.bits ||| b.bits⟩

/-- A set covers a second one that is not empty and has no kind the first one lacks. -/
def covers (a b : Interest) : Bool := b.bits != 0 && a.bits &&& b.bits == b.bits

end Interest

/-- What happened, as one handle sees it. -/
inductive Notification where
  | attrSet (name : String)
  | attrDel (name : String)
  | childAdded (name : String)
  | childRemoved (name : String)
  | lockAcquired
  | lockReleased
  deriving DecidableEq

namespace Notification

/-- The bit a handle needs in its interest to be told. -/
def interest : Notification → Interest
  | .attrSet _ => .attrSet
  | .attrDel _ => .attrDel
  | .childAdded _ => .childAdded
  | .childRemoved _ => .childRemoved
  | .lockAcquired => .lockAcquired
  | .lockReleased => .lockReleased

end Notification

end Coordination
