import Coordination.Handle

/-!
# Delivery commands

The coordinator never waits for a callback. It hands over commands: deliver an event to the
callback of a handle, or retire a handle that has ended.
-/

namespace Coordination

/-- A notification addressed to one handle, and the node it concerns. -/
structure Event where
  handle : HandleId
  node : NodeId
  notification : Notification
  deriving DecidableEq

/-- What the coordinator asks of the delivery of events. -/
inductive Command where
  | deliver (event : Event) (callback : Callback)
  | retire (handle : HandleId)
  deriving DecidableEq

end Coordination
