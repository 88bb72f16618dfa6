/-!
# Flags of an open request

They say whether opening a path may create its node, and what kind of node it then becomes.
-/

namespace Coordination

/-- A set of flags, without unknown bits. -/
structure OpenFlags where
  bits : UInt32
  deriving DecidableEq

namespace OpenFlags

/-- No flag at all. -/
def none : OpenFlags := ⟨0⟩

/-- Create the node if it does not exist. -/
def create : OpenFlags := ⟨0x01⟩

/-- Together with `create`, refuse a node that exists. -/
def fresh : OpenFlags := ⟨0x02⟩

/-- A node created by this request goes away with its last handle. -/
def ephemeral : OpenFlags := ⟨0x04⟩

/-- A node created by this request is a directory. -/
def directory : OpenFlags := ⟨0x08⟩

/-- Keeps the bits that stand for a flag and drops the others. -/
def ofBits (bits : UInt32) : OpenFlags := ⟨bits &&& 0x0f⟩

/-- The flags of either set. -/
def union (a b : OpenFlags) : OpenFlags := ⟨a.bits ||| b.bits⟩

/-- Two sets meet if they share a flag. -/
def meets (a b : OpenFlags) : Bool := a.bits &&& b.bits != 0

end OpenFlags

end Coordination
