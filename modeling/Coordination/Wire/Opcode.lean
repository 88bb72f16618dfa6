import Coordination.Wire.Message

/-!
# Opcodes

The header of a frame names the operation it carries, so that a payload of another operation is
noticed.
-/

namespace Coordination.Wire

/-- What a frame asks for or tells. -/
inductive Opcode where
  | createSession
  | keepalive
  | destroySession
  | open
  | close
  | mkdir
  | delete
  | exists
  | readdir
  | attrSet
  | attrGet
  | attrDel
  | attrExists
  | attrList
  | lock
  | tryLock
  | release
  | status
  /-- A notification for a handle; no request carries it. -/
  | event
  deriving DecidableEq

namespace Opcode

/-- All opcodes there are. -/
def all : List Opcode :=
  [.createSession, .keepalive, .destroySession, .open, .close, .mkdir, .delete, .exists, .readdir,
    .attrSet, .attrGet, .attrDel, .attrExists, .attrList, .lock, .tryLock, .release, .status,
    .event]

/-- The number in the header. -/
def number : Opcode → UInt16
  | .createSession => 0x0001
  | .keepalive => 0x0002
  | .destroySession => 0x0003
  | .open => 0x0010
  | .close => 0x0011
  | .mkdir => 0x0012
  | .delete => 0x0013
  | .exists => 0x0014
  | .readdir => 0x0015
  | .attrSet => 0x0020
  | .attrGet => 0x0021
  | .attrDel => 0x0022
  | .attrExists => 0x0023
  | .attrList => 0x0024
  | .lock => 0x0030
  | .tryLock => 0x0031
  | .release => 0x0032
  | .status => 0x0040
  | .event => 0x0100

/-- The name in error texts. -/
def name : Opcode → String
  | .createSession => "CreateSession"
  | .keepalive => "Keepalive"
  | .destroySession => "DestroySession"
  | .open => "Open"
  | .close => "Close"
  | .mkdir => "Mkdir"
  | .delete => "Delete"
  | .exists => "Exists"
  | .readdir => "Readdir"
  | .attrSet => "AttrSet"
  | .attrGet => "AttrGet"
  | .attrDel => "AttrDel"
  | .attrExists => "AttrExists"
  | .attrList => "AttrList"
  | .lock => "Lock"
  | .tryLock => "TryLock"
  | .release => "Release"
  | .status => "Status"
  | .event => "Event"

/-- The operation with a number. -/
def ofNumber? (n : UInt16) : Option Opcode := all.find? (·.number = n)

/-- The number of an opcode stands for that opcode. -/
theorem ofNumber?_number (o : Opcode) : ofNumber? o.number = some o := by
  cases o <;> rfl

end Opcode

/-- The operation a request asks for. -/
def Request.opcode : Request → Opcode
  | .createSession => .createSession
  | .keepalive .. => .keepalive
  | .destroySession .. => .destroySession
  | .open .. => .open
  | .close .. => .close
  | .mkdir .. => .mkdir
  | .delete .. => .delete
  | .exists .. => .exists
  | .readdir .. => .readdir
  | .attrSet .. => .attrSet
  | .attrGet .. => .attrGet
  | .attrDel .. => .attrDel
  | .attrExists .. => .attrExists
  | .attrList .. => .attrList
  | .lock .. => .lock
  | .tryLock .. => .tryLock
  | .release .. => .release
  | .status => .status

end Coordination.Wire
