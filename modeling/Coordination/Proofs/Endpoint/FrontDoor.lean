import Coordination.Endpoint.FrontDoor
import Coordination.Proofs.Coordinator.Runs
import Coordination.Proofs.Wire.Length

/-!
# Requests are answered as calls

What comes in as a frame has the effect of the call that it stands for, and what goes out tells what
the call has come to. `Asks` says which call a request stands for and `Tells` which response
represents its answer, both one line for each request; a frame that is no request has no effect.
-/

namespace Coordination

/-! ## What requests and responses stand for -/

/-- The call that a request stands for. Of the flags and of the interest, the bits count that stand
for something. -/
inductive Wire.Request.Asks (callback : Callback) : Wire.Request → Call → Prop
  | createSession : Asks callback .createSession .createSession
  | keepalive {session : UInt64} : Asks callback (.keepalive session) (.keepalive ⟨session.toNat⟩)
  | destroySession {session : UInt64} :
    Asks callback (.destroySession session) (.destroySession ⟨session.toNat⟩)
  | open {session : UInt64} {path : String} {flags interest : UInt32} {known : OpenFlags}
      {wanted : Interest}
      (flag : ∀ i, known.bits.toNat.testBit i = (decide (i < 4) && flags.toNat.testBit i))
      (kind : ∀ i, wanted.bits.toNat.testBit i = (decide (i < 6) && interest.toNat.testBit i)) :
    Asks callback (.open session path flags interest)
      (.openHandle ⟨session.toNat⟩ path known wanted callback)
  | close {session handle : UInt64} :
    Asks callback (.close session handle) (.close ⟨session.toNat⟩ ⟨handle.toNat⟩)
  | mkdir {session : UInt64} {path : String} :
    Asks callback (.mkdir session path) (.mkdir ⟨session.toNat⟩ path)
  | delete {session : UInt64} {path : String} :
    Asks callback (.delete session path) (.delete ⟨session.toNat⟩ path)
  | exists {session : UInt64} {path : String} :
    Asks callback (.exists session path) (.pathExists ⟨session.toNat⟩ path)
  | readdir {session handle : UInt64} :
    Asks callback (.readdir session handle) (.readdir ⟨session.toNat⟩ ⟨handle.toNat⟩)
  | attrSet {session handle : UInt64} {name : String} {value : Bytes} :
    Asks callback (.attrSet session handle name value)
      (.attrSet ⟨session.toNat⟩ ⟨handle.toNat⟩ name value)
  | attrGet {session handle : UInt64} {name : String} :
    Asks callback (.attrGet session handle name) (.attrGet ⟨session.toNat⟩ ⟨handle.toNat⟩ name)
  | attrDel {session handle : UInt64} {name : String} :
    Asks callback (.attrDel session handle name) (.attrDel ⟨session.toNat⟩ ⟨handle.toNat⟩ name)
  | attrExists {session handle : UInt64} {name : String} :
    Asks callback (.attrExists session handle name)
      (.attrExists ⟨session.toNat⟩ ⟨handle.toNat⟩ name)
  | attrList {session handle : UInt64} :
    Asks callback (.attrList session handle) (.attrList ⟨session.toNat⟩ ⟨handle.toNat⟩)
  | lock {session handle : UInt64} {mode : LockMode} :
    Asks callback (.lock session handle mode) (.lock ⟨session.toNat⟩ ⟨handle.toNat⟩ mode)
  | tryLock {session handle : UInt64} {mode : LockMode} :
    Asks callback (.tryLock session handle mode) (.tryLock ⟨session.toNat⟩ ⟨handle.toNat⟩ mode)
  | release {session handle : UInt64} :
    Asks callback (.release session handle) (.release ⟨session.toNat⟩ ⟨handle.toNat⟩)
  | status : Asks callback .status .sizes

/-- A span of time has so many whole milliseconds, none if it is not positive. -/
def WholeMillis (span : Int) (n : Nat) : Prop :=
  span ≤ 0 ∧ n = 0 ∨ milliseconds n ≤ span ∧ span < milliseconds (n + 1)

/-- The response that represents what a call answers. Numbers are words of 64 bits. -/
inductive Call.Tells (now : Instant) : Call → Answer → Wire.Response → Prop
  | createSession {id : SessionId} {lapse : Instant} {left : Nat}
      (lasts : WholeMillis (lapse - now) left) :
    Tells now .createSession (.session id lapse) (.session (.ofNat id.number) (.ofNat left))
  | keepalive {session : SessionId} {lapse : Instant} {left : Nat}
      (lasts : WholeMillis (lapse - now) left) :
    Tells now (.keepalive session) (.deadline lapse) (.lease (.ofNat left))
  | destroySession {session : SessionId} : Tells now (.destroySession session) .done .ok
  | openHandle {session : SessionId} {path : String} {flags : OpenFlags} {interest : Interest}
      {callback : Callback} {id : HandleId} :
    Tells now (.openHandle session path flags interest callback) (.handle id)
      (.handle (.ofNat id.number))
  | close {session : SessionId} {handle : HandleId} : Tells now (.close session handle) .done .ok
  | mkdir {session : SessionId} {path : String} : Tells now (.mkdir session path) .done .ok
  | delete {session : SessionId} {path : String} : Tells now (.delete session path) .done .ok
  | pathExists {session : SessionId} {path : String} {b : Bool} :
    Tells now (.pathExists session path) (.truth b) (.bool b)
  | readdir {session : SessionId} {handle : HandleId} {names : List String} :
    Tells now (.readdir session handle) (.names names) (.names names)
  | attrSet {session : SessionId} {handle : HandleId} {name : String} {value : Bytes} :
    Tells now (.attrSet session handle name value) .done .ok
  | attrGet {session : SessionId} {handle : HandleId} {name : String} {value : Bytes} :
    Tells now (.attrGet session handle name) (.value value) (.value value)
  | attrDel {session : SessionId} {handle : HandleId} {name : String} :
    Tells now (.attrDel session handle name) .done .ok
  | attrExists {session : SessionId} {handle : HandleId} {name : String} {b : Bool} :
    Tells now (.attrExists session handle name) (.truth b) (.bool b)
  | attrList {session : SessionId} {handle : HandleId} {names : List String} :
    Tells now (.attrList session handle) (.names names) (.names names)
  | lockGranted {session : SessionId} {handle : HandleId} {mode : LockMode} {generation : Nat} :
    Tells now (.lock session handle mode) (.lock (.granted generation))
      (.lock (.granted (.ofNat generation)))
  | lockQueued {session : SessionId} {handle : HandleId} {mode : LockMode} :
    Tells now (.lock session handle mode) (.lock .queued) (.lock .queued)
  | tryLock {session : SessionId} {handle : HandleId} {mode : LockMode} {generation : Nat} :
    Tells now (.tryLock session handle mode) (.generation generation)
      (.generation (.ofNat generation))
  | release {session : SessionId} {handle : HandleId} :
    Tells now (.release session handle) .done .ok
  | sizes {s : Sizes} :
    Tells now .sizes (.sizes s) (.status (.ofNat s.nodes) (.ofNat s.sessions) (.ofNat s.handles))

/-- The reply represents what a call has come to. There is none if the store has died under it. -/
inductive Represents (fault : StoreCall → Option Fault) (now : Instant) (call : Call) :
    Except Interruption Answer → Except Interruption Wire.Frame → Prop
  | answer {answer : Answer} {reply : Wire.Frame} {response : Wire.Response}
      (tells : call.Tells now answer response)
      (read : response.Counted → reply.toResponse = .ok response) :
    Represents fault now call (.ok answer) (.ok reply)
  | refusal {why : Failure} {reply : Wire.Frame}
      (read : Wire.CountedText why.message →
        reply.toResponse = .ok (.error why.kind why.message)) :
    Represents fault now call (.error (.refused why)) (.ok reply)
  | death {kind : StoreCall} (dies : fault kind = some .crash) :
    Represents fault now call (.error .crashed) (.error .crashed)

/-! ## Requests -/

section Requests

variable {s s' : State} {r : Wire.Request} {callback : Callback} {call : Call} {answer : Answer}
variable {now lapse : Instant}

/-- The low bits of a word. -/
lemma testBit_and_mask (width : Nat) {word mask : UInt32} (low : mask.toNat = 2 ^ width - 1)
    (i : Nat) :
    (word &&& mask).toNat.testBit i = (decide (i < width) && word.toNat.testBit i) := by
  rw [UInt32.toNat_and, Nat.testBit_and, low, Nat.testBit_two_pow_sub_one, Bool.and_comm]

/-- Every request asks for the call that is made of it. -/
lemma Wire.Request.asks_call (r : Wire.Request) (callback : Callback) :
    r.Asks callback (r.call callback) := by
  cases r
  case «open» =>
    exact .open (testBit_and_mask 4 rfl) (testBit_and_mask 6 rfl)
  all_goals constructor

/-- The time left is told in whole milliseconds. -/
lemma wholeMillis_millisBetween : WholeMillis (lapse - now) (millisBetween now lapse) := by
  unfold WholeMillis millisBetween milliseconds
  generalize lapse - now = span
  omega

/-- What is answered to a request is told by the response to it. -/
lemma State.Done.tells (done : s.Done now call answer s') (asks : r.Asks callback call) :
    call.Tells now answer (answer.response now) := by
  cases asks <;> cases done
  case createSession.createSession => exact .createSession wholeMillis_millisBetween
  case keepalive.keepalive => exact .keepalive wholeMillis_millisBetween
  all_goals constructor

end Requests

namespace Coordinator

variable {allowed : Set Fault} {c : Coordinator} {fault : StoreCall → Option Fault}

/-- A response is read back from its frame. -/
lemma toResponse_ofResponse {id : UInt64} {opcode : UInt16} {response : Wire.Response}
    (counted : response.Counted) :
    (Wire.Frame.ofResponse id opcode response).toResponse = .ok response :=
  Wire.Frame.read_eq_ok_iff.mpr (Wire.Reader.reads_response counted).complete

/-- A request leaves what the call leaves that it stands for, and its reply represents what that
call has come to. -/
lemma answerFrame_request (sound : c.state.Sound) (now : Instant) (callback : Callback)
    {f : Wire.Frame} {r : Wire.Request} (read : f.toRequest = .ok r) :
    (c.answerFrame now callback f).coordinator =
      (c.perform now (r.call callback)).coordinator ∧
    (c.answerFrame now callback f).commands = (c.perform now (r.call callback)).commands ∧
    Represents c.state.store.fault now (r.call callback) (c.perform now (r.call callback)).result
      (c.answerFrame now callback f).result := by
  rw [answerFrame, read]
  refine ⟨rfl, rfl, ?_⟩
  dsimp only
  cases result : (c.perform now (r.call callback)).result with
  | ok answer =>
    obtain ⟨s', done, -⟩ := done_of_ok sound result
    exact .answer (done.tells (r.asks_call callback)) toResponse_ofResponse
  | error e =>
    cases e with
    | refused why => exact .refusal fun counted => toResponse_ofResponse counted
    | crashed =>
      obtain ⟨kind, dies⟩ := died_of_perform sound result
      exact .death dies

/-- A frame that is no request has no effect, and the reply blames the sender. -/
lemma answerFrame_malformed (now : Instant) (callback : Callback) {f : Wire.Frame} {why : Failure}
    (counted : Wire.Reader.Counted f.payload) (malformed : f.toRequest = .error why) :
    (c.answerFrame now callback f).coordinator = c ∧ (c.answerFrame now callback f).commands = [] ∧
    ∃ reply text, (c.answerFrame now callback f).result = .ok reply ∧
      reply.toResponse = .ok (.error .protocol text) := by
  obtain ⟨detail, rfl, short⟩ := Wire.Frame.brief_of_toRequest counted malformed
  rw [answerFrame, malformed]
  refine ⟨rfl, rfl, _, _, rfl, toResponse_ofResponse ?_⟩
  have brief : (Failure.protocol detail).Brief 240 := short
  exact lt_of_le_of_lt brief.size_message (by decide)

/-- A reply is a response that carries the number and the operation of the frame it answers. -/
lemma header_of_answerFrame {now : Instant} {callback : Callback} {f reply : Wire.Frame}
    (answered : (c.answerFrame now callback f).result = .ok reply) :
    reply.kind = .response ∧ reply.id = f.id ∧ reply.opcode = f.opcode := by
  unfold answerFrame at answered
  split at answered
  · obtain rfl := Except.ok.inj answered
    exact ⟨rfl, rfl, rfl⟩
  · dsimp only at answered
    split at answered
    · obtain rfl := Except.ok.inj answered
      exact ⟨rfl, rfl, rfl⟩
    · obtain rfl := Except.ok.inj answered
      exact ⟨rfl, rfl, rfl⟩
    · cases answered

/-- Wherever a run leads, a frame is answered by a response to it. A request has the effect of the
call that it stands for, no other effect, and a reply that tells what the call has come to; a frame
that is no request has no effect and is blamed on the sender. -/
theorem Reachable.frames_answered (reached : c.Reachable allowed) (fault : StoreCall → Option Fault)
    (now : Instant) (callback : Callback) (f : Wire.Frame)
    (counted : Wire.Reader.Counted f.payload) :
    let outcome := (c.withFaults fault).answerFrame now callback f
    (∀ reply, outcome.result = .ok reply →
      reply.kind = .response ∧ reply.id = f.id ∧ reply.opcode = f.opcode) ∧
    (∀ r, f.toRequest = .ok r → ∃ call, r.Asks callback call ∧
      outcome.coordinator = ((c.withFaults fault).perform now call).coordinator ∧
      outcome.commands = ((c.withFaults fault).perform now call).commands ∧
      Represents fault now call ((c.withFaults fault).perform now call).result outcome.result) ∧
    ∀ why, f.toRequest = .error why → outcome.coordinator = c.withFaults fault ∧
      outcome.commands = [] ∧ ∃ reply text, outcome.result = .ok reply ∧
        reply.toResponse = .ok (.error .protocol text) := by
  have sound : (c.withFaults fault).state.Sound := reached.sound.withStore _
  refine ⟨fun reply => header_of_answerFrame, fun r read => ?_, fun why malformed => ?_⟩
  · exact ⟨r.call callback, r.asks_call callback, answerFrame_request sound now callback read⟩
  · exact answerFrame_malformed now callback counted malformed

/-- A client opens a file and sets bits that stand for nothing; then it sends a byte that begins no
request. -/
theorem frames_answered_stray_bits :
    let c := (after [.createSession]).withFaults fun _ => none
    let asked : Wire.Request := .open 1 "/f" 0xf1 0xc1
    let f := Wire.Frame.ofRequest 7 asked
    let outcome := c.answerFrame 0 (.process "a") f
    (∃ call, asked.Asks (.process "a") call ∧
      outcome.coordinator = (c.perform 0 call).coordinator) ∧
    outcome.result = .ok (.ofResponse 7 f.opcode (.handle 1)) ∧
    (c.answerFrame 0 (.process "a") { f with payload := [0xff] }).coordinator = c := by
  intro c asked f outcome
  have reached : (after [.createSession]).Reachable ∅ := reachable_after _
  have read : f.toRequest = .ok asked := by decide +kernel
  have answered : outcome.result = .ok (.ofResponse 7 f.opcode (.handle 1)) := by decide +kernel
  obtain ⟨-, requests, -⟩ := reached.frames_answered (fun _ => none) 0 (.process "a") f (by decide)
  obtain ⟨call, asks, same, -⟩ := requests asked read
  obtain ⟨-, -, others⟩ := reached.frames_answered (fun _ => none) 0 (.process "a")
    { f with payload := [0xff] } (by decide)
  obtain ⟨why, malformed⟩ : ∃ why, Wire.Frame.toRequest { f with payload := [0xff] } = .error why :=
    ⟨_, rfl⟩
  exact ⟨⟨call, asks, same⟩, answered, (others why malformed).1⟩

end Coordinator

end Coordination
