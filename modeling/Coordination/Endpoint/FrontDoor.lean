import Coordination.Coordinator.Basic
import Coordination.Wire.Frame

/-!
# Requests as calls

A request frame is answered by a response frame with the same id and opcode number. `Request.call`
says which call a request stands for, and `Answer.response` how its answer is written. A frame that
is no request never reaches the coordinator.
-/

namespace Coordination

namespace Wire

/-- The call that a request stands for; events of a handle it opens go to `callback`. -/
def Request.call (callback : Callback) : Request → Call
  | .createSession => .createSession
  | .keepalive session => .keepalive ⟨session.toNat⟩
  | .destroySession session => .destroySession ⟨session.toNat⟩
  | .open session path flags interest =>
    .openHandle ⟨session.toNat⟩ path (.ofBits flags) (.ofBits interest) callback
  | .close session handle => .close ⟨session.toNat⟩ ⟨handle.toNat⟩
  | .mkdir session path => .mkdir ⟨session.toNat⟩ path
  | .delete session path => .delete ⟨session.toNat⟩ path
  | .exists session path => .pathExists ⟨session.toNat⟩ path
  | .readdir session handle => .readdir ⟨session.toNat⟩ ⟨handle.toNat⟩
  | .attrSet session handle name value =>
    .attrSet ⟨session.toNat⟩ ⟨handle.toNat⟩ name value
  | .attrGet session handle name => .attrGet ⟨session.toNat⟩ ⟨handle.toNat⟩ name
  | .attrDel session handle name => .attrDel ⟨session.toNat⟩ ⟨handle.toNat⟩ name
  | .attrExists session handle name => .attrExists ⟨session.toNat⟩ ⟨handle.toNat⟩ name
  | .attrList session handle => .attrList ⟨session.toNat⟩ ⟨handle.toNat⟩
  | .lock session handle mode => .lock ⟨session.toNat⟩ ⟨handle.toNat⟩ mode
  | .tryLock session handle mode => .tryLock ⟨session.toNat⟩ ⟨handle.toNat⟩ mode
  | .release session handle => .release ⟨session.toNat⟩ ⟨handle.toNat⟩
  | .status => .sizes

end Wire

/-- The response that carries an answer; a deadline is told as the whole milliseconds left. The
answers to calls for which there is no request are never sent. -/
def Answer.response (now : Instant) : Answer → Wire.Response
  | .done => .ok
  | .session id lapse => .session (.ofNat id.number) (.ofNat (millisBetween now lapse))
  | .deadline lapse => .lease (.ofNat (millisBetween now lapse))
  | .handle id => .handle (.ofNat id.number)
  | .truth b => .bool b
  | .value bytes => .value bytes
  | .names list => .names list
  | .lock (.granted n) => .lock (.granted (.ofNat n))
  | .lock .queued => .lock .queued
  | .generation n => .generation (.ofNat n)
  | .sizes s => .status (.ofNat s.nodes) (.ofNat s.sessions) (.ofNat s.handles)
  | .expired _ => .ok
  | .lockView _ => .ok

namespace Coordinator

/-- Answers one frame. Only a store that dies leaves it without an answer. -/
def answerFrame (c : Coordinator) (now : Instant) (callback : Callback) (f : Wire.Frame) :
    Outcome Wire.Frame :=
  let reply (r : Wire.Response) : Wire.Frame := .ofResponse f.id f.opcode r
  match f.toRequest with
  | .error e => ⟨.ok (reply (.ofFailure e)), c, []⟩
  | .ok request =>
    let outcome := c.perform now (request.call callback)
    let result := match outcome.result with
      | .ok answer => .ok (reply (answer.response now))
      | .error (.refused e) => .ok (reply (.ofFailure e))
      | .error .crashed => .error .crashed
    ⟨result, outcome.coordinator, outcome.commands⟩

end Coordinator

end Coordination
