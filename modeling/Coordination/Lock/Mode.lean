/-!
# Lock modes

A lock is free, shared by any number of holders, or held by exactly one.
-/

namespace Coordination

/-- The mode of a node's lock, and the mode a request asks for. -/
inductive LockMode where
  | none
  | shared
  | exclusive
  deriving DecidableEq

namespace LockMode

/-- The word for a mode in messages. -/
def word : LockMode → String
  | .none => "none"
  | .shared => "shared"
  | .exclusive => "exclusive"

end LockMode

end Coordination
