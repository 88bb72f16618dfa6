import Coordination.Failure

/-!
# Sessions and their leases

A session is connected while its client keeps in contact. When the lease has lapsed the session is
in jeopardy for the grace period, during which any contact restores it, and then it expires. Only
whole milliseconds of a contact count, and contact never moves a deadline backwards.
-/

namespace Coordination

/-- A point on the service's clock, in microseconds. The unit is a choice: only `milliseconds` and
`millisBetween` depend on it. -/
abbrev Instant := Int

/-- How long a contact keeps a session connected, and how long it stays in jeopardy afterwards, in
milliseconds. Settings are given in whole milliseconds, so this is exact for all of them. -/
structure LeaseTerms where
  interval : Nat
  grace : Nat
  deriving DecidableEq

/-- The terms of a service that sets none. -/
def LeaseTerms.standard : LeaseTerms := ⟨12000, 30000⟩

/-- The length of so many milliseconds on the clock. -/
def milliseconds (n : Nat) : Int := 1000 * n

/-- Whole milliseconds from one point on the clock to a later one, zero if it is not later. -/
def millisBetween (start stop : Instant) : Nat := ((stop - start) / 1000).toNat

/-- Where a session stands with its lease. -/
inductive SessionState where
  | connected
  | jeopardy
  /-- The session is about to be destroyed; it never comes back. -/
  | expired
  deriving DecidableEq

/-- A lock that a session holds through one of its handles. -/
structure HeldLock where
  node : NodeId
  handle : HandleId
  deriving DecidableEq

/-- Held locks are ordered by node, then by handle. -/
instance : LT HeldLock := ⟨fun a b => a.node < b.node ∨ a.node = b.node ∧ a.handle < b.handle⟩

/-- The order of held locks can be decided. -/
instance : DecidableLT HeldLock := fun a b =>
  inferInstanceAs (Decidable (a.node < b.node ∨ a.node = b.node ∧ a.handle < b.handle))

/-- Held locks are ordered by node, then by handle. -/
instance : StrictOrder HeldLock where
  irrefl a h := by
    rcases h with h | ⟨-, h⟩
    · exact StrictOrder.irrefl _ h
    · exact StrictOrder.irrefl _ h
  trans := fun {a b c} h h' => by
    rcases h with h | ⟨e, h⟩ <;> rcases h' with h' | ⟨e', h'⟩
    · exact .inl (StrictOrder.trans h h')
    · exact .inl (e' ▸ h)
    · exact .inl (e ▸ h')
    · exact .inr ⟨e.trans e', StrictOrder.trans h h'⟩
  connected := fun {a b} h h' => by
    cases a
    cases b
    have nodes := StrictOrder.connected (fun lt => h (.inl lt)) (fun lt => h' (.inl lt))
    have handles := StrictOrder.connected (fun lt => h (.inr ⟨nodes, lt⟩))
      (fun lt => h' (.inr ⟨nodes.symm, lt⟩))
    exact congr (congrArg HeldLock.mk nodes) handles

/-- A client session. -/
structure Session where
  handles : FinSet HandleId
  locks : FinSet HeldLock
  state : SessionState
  /-- Milliseconds from the epoch of the table to the last contact. -/
  lastContact : Nat
  deriving DecidableEq

namespace Session

/-- A session that has not expired may make requests. -/
def isLive (s : Session) : Bool := s.state ≠ .expired

/-- A session in jeopardy is connected again; others stay as they are. -/
def reconnect (s : Session) : Session :=
  { s with state := if s.state = .jeopardy then .connected else s.state }

/-- A session after contact: of two contacts the later one counts, and jeopardy ends. -/
def contact (s : Session) (millis : Nat) : Session :=
  { s.reconnect with lastContact := max s.lastContact millis }

end Session

/-- The sessions that have not been destroyed. -/
structure SessionTable where
  sessions : FinMap SessionId Session
  next : SessionId
  epoch : Instant
  terms : LeaseTerms

namespace SessionTable

/-- A table without sessions, whose contacts count from `epoch`. -/
def new (terms : LeaseTerms) (epoch : Instant) : SessionTable := ⟨.empty, ⟨1⟩, epoch, terms⟩

/-- Whole milliseconds from the epoch, zero before it. -/
def millis (t : SessionTable) (now : Instant) : Nat := millisBetween t.epoch now

/-- When the lease of a session lapses. -/
def deadlineOf (t : SessionTable) (s : Session) : Instant :=
  t.epoch + milliseconds s.lastContact + milliseconds t.terms.interval

/-- When the grace period of a session ends. -/
def expiryOf (t : SessionTable) (s : Session) : Instant :=
  t.deadlineOf s + milliseconds t.terms.grace

/-- The session of an identifier. -/
def get? (t : SessionTable) (id : SessionId) : Option Session := t.sessions.get? id

/-- Where the session of an identifier stands. -/
def state? (t : SessionTable) (id : SessionId) : Option SessionState :=
  (t.get? id).map Session.state

/-- The number of sessions. -/
def size (t : SessionTable) : Nat := t.sessions.size

/-- Changes the record of a session, if there is one. -/
def modify (t : SessionTable) (id : SessionId) (f : Session → Session) : SessionTable :=
  { t with sessions := t.sessions.modify id f }

/-- Opens a connected session; returns its identifier and deadline. -/
def create (t : SessionTable) (now : Instant) : (SessionId × Instant) × SessionTable :=
  let s : Session := ⟨.empty, .empty, .connected, t.millis now⟩
  ((t.next, t.deadlineOf s), { t with sessions := t.sessions.insert t.next s, next := t.next.next })

/-- The record of a session that has not expired. -/
def live (t : SessionTable) (id : SessionId) : Except Failure Session :=
  match (t.get? id).filter Session.isLive with
  | none => .error (.noSuchSession id)
  | some s => .ok s

/-- Records contact from a session that has not expired. -/
def touch (t : SessionTable) (id : SessionId) (now : Instant) : Except Failure SessionTable := do
  let _ ← t.live id
  return t.modify id (·.contact (t.millis now))

/-- The deadline of a session that has not expired. -/
def deadline (t : SessionTable) (id : SessionId) : Except Failure Instant :=
  t.deadlineOf <$> t.live id

/-- Records contact and answers with the new deadline. -/
def renew (t : SessionTable) (id : SessionId) (now : Instant) :
    Except Failure (Instant × SessionTable) := do
  let t ← t.touch id now
  return (← t.deadline id, t)

/-- The state a live session moves to: connected before its deadline, in jeopardy before the end
of its grace period, expired from then on. -/
def stateAt (t : SessionTable) (s : Session) (now : Instant) : SessionState :=
  if now < t.deadlineOf s then .connected
  else if now < t.expiryOf s then .jeopardy
  else .expired

/-- Moves every live session to its state at `now`; returns those that just expired. -/
def tick (t : SessionTable) (now : Instant) : List SessionId × SessionTable :=
  let due := t.sessions.toList.filter fun b => b.2.isLive && t.stateAt b.2 now = .expired
  let advance (s : Session) : Session := if s.isLive then { s with state := t.stateAt s now } else s
  (due.map Prod.fst, { t with sessions := t.sessions.mapValues fun _ s => advance s })

/-- Marks a live session as expired. -/
def expire (t : SessionTable) (id : SessionId) : Except Failure SessionTable := do
  let _ ← t.live id
  return t.modify id ({ · with state := .expired })

/-- Forgets a session. -/
def remove (t : SessionTable) (id : SessionId) : SessionTable :=
  { t with sessions := t.sessions.erase id }

end SessionTable

end Coordination
