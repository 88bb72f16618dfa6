import Coordination.Proofs.Wire.Delimited
import Coordination.Wire.Frame

/-!
# Messages are read back and nothing else is

The readers of messages are put together from readers that mark their own end, so they do as well:
each takes what was written for a message, whatever follows, and none accepts a payload of which it
accepts a proper part. The readers of whole frames add the checks of the header, whose failures are
blamed on the sender like those of the payload.
-/

namespace Coordination.Wire

/-! ## Lengths that can be written -/

/-- The bytes of the text are counted in 64 bits. -/
abbrev CountedText (s : String) : Prop := Reader.Counted (Text.Utf8.encode s)

/-- Every text and list in the request has a length of 64 bits. -/
def Request.Counted : Request → Prop
  | .open _ path _ _ | .mkdir _ path | .delete _ path | .exists _ path => CountedText path
  | .attrGet _ _ name | .attrDel _ _ name | .attrExists _ _ name => CountedText name
  | .attrSet _ _ name value => CountedText name ∧ Reader.Counted value
  | _ => True

/-- Every text, byte string and list in the response can be counted in 64 bits. -/
def Response.Counted : Response → Prop
  | .value bytes => Reader.Counted bytes
  | .names list => Reader.Counted list ∧ ∀ name ∈ list, CountedText name
  | .error _ message => CountedText message
  | _ => True

/-- The name in a notification, if there is one, can be counted. -/
def CountedNotification : Notification → Prop
  | .attrSet name | .attrDel name | .childAdded name | .childRemoved name => CountedText name
  | .lockAcquired | .lockReleased => True

namespace Reader

/-- Lock modes are read back. -/
lemma reads_lockMode (mode : LockMode) : Reads lockMode (Wire.lockMode mode) mode := by
  unfold lockMode
  cases mode <;> exact .bind_pure reads_tag rfl

/-- Kinds of failure are read back. -/
lemma reads_failureKind (kind : FailureKind) :
    Reads failureKind (Wire.failureKind kind) kind := by
  have listed : kind.index < FailureKind.all.length := by cases kind <;> decide
  have found : FailureKind.all.getD kind.index .corrupted = kind := by cases kind <;> rfl
  exact (reads_tag listed).bind_pure (congrArg pure found)

/-- Replies to requests for locks are read back. -/
lemma reads_lockReply (reply : LockReply) : Reads lockReply (Wire.lockReply reply) reply := by
  unfold lockReply
  cases reply with
  | granted generation => exact .bind reads_tag (.last _ (reads_word64 generation))
  | queued => exact .bind_pure reads_tag rfl

/-- Requests are read back, if what they carry can be counted. -/
lemma reads_request {r : Request} (counted : r.Counted) : Reads request r.encode r := by
  unfold request
  cases r
  all_goals simp only [Request.encode, List.append_assoc]
  case createSession | status => exact .bind_pure reads_tag rfl
  case keepalive session | destroySession session =>
    exact .bind reads_tag (.last _ (reads_word64 session))
  case close session handle | readdir session handle | attrList session handle
      | release session handle =>
    exact .bind reads_tag (.bind (reads_word64 session) (.last _ (reads_word64 handle)))
  case mkdir session path | delete session path | «exists» session path =>
    exact .bind reads_tag (.bind (reads_word64 session) (.last _ (reads_text counted)))
  case attrGet session handle name | attrDel session handle name | attrExists session handle name =>
    exact .bind reads_tag (.bind (reads_word64 session) (.bind (reads_word64 handle)
      (.last _ (reads_text counted))))
  case lock session handle mode | tryLock session handle mode =>
    exact .bind reads_tag (.bind (reads_word64 session) (.bind (reads_word64 handle)
      (.last _ (reads_lockMode mode))))
  case «open» session path flags interest =>
    exact .bind reads_tag (.bind (reads_word64 session) (.bind (reads_text counted)
      (.bind (reads_word32 flags) (.last _ (reads_word32 interest)))))
  case attrSet session handle name value =>
    exact .bind reads_tag (.bind (reads_word64 session) (.bind (reads_word64 handle)
      (.bind (reads_text counted.1) (.last _ (reads_bytes counted.2)))))

/-- Responses are read back, if what they carry can be counted. -/
lemma reads_response {r : Response} (counted : r.Counted) : Reads response r.encode r := by
  unfold response
  cases r
  all_goals simp only [Response.encode, List.append_assoc]
  case ok => exact .bind_pure reads_tag rfl
  case lease number | handle number | generation number =>
    exact .bind reads_tag (.last _ (reads_word64 number))
  case session session millis =>
    exact .bind reads_tag (.bind (reads_word64 session) (.last _ (reads_word64 millis)))
  case status nodes sessions handles =>
    exact .bind reads_tag (.bind (reads_word64 nodes) (.bind (reads_word64 sessions)
      (.last _ (reads_word64 handles))))
  case bool value => exact .bind reads_tag (.last _ (reads_bool value))
  case value value => exact .bind reads_tag (.last _ (reads_bytes counted))
  case names names =>
    have each : ∀ name ∈ names, Reads text (Wire.text name) name :=
      fun name mem => reads_text (counted.2 name mem)
    exact .bind reads_tag (.last _ (reads_list counted.1 each))
  case lock reply => exact .bind reads_tag (.last _ (reads_lockReply reply))
  case error kind message =>
    exact .bind reads_tag (.bind (reads_failureKind kind) (.last _ (reads_text counted)))

/-- Notifications are read back, if the name in them can be counted. -/
lemma reads_notification {n : Notification} (counted : CountedNotification n) :
    Reads notification (Wire.notification n) n := by
  unfold notification
  cases n
  case lockAcquired | lockReleased => exact .bind_pure reads_tag rfl
  all_goals exact .bind reads_tag (.last _ (reads_text counted))

/-- Messages about events are read back, if the name in them can be counted. -/
lemma reads_eventMessage {m : EventMessage} (counted : CountedNotification m.notification) :
    Reads eventMessage m.encode m :=
  .bind (reads_word64 m.handle) (.last _ (reads_notification counted))

/-! ## No reader looks behind its message -/

/-- A lock mode ends with its tag. -/
instance : SelfDelimiting lockMode := by
  unfold lockMode
  refine .bind inferInstance fun n => ?_
  split <;> infer_instance

/-- A kind of failure ends with its tag. -/
instance : SelfDelimiting failureKind := by
  unfold failureKind
  infer_instance

/-- The tag of a notification says where it ends. -/
instance : SelfDelimiting notification := by
  unfold notification
  refine .bind inferInstance fun n => ?_
  split <;> infer_instance

/-- The tag of a lock reply says where it ends. -/
instance : SelfDelimiting lockReply := by
  unfold lockReply
  refine .bind inferInstance fun n => ?_
  split <;> infer_instance

/-- The tag of a request says where it ends. -/
instance : SelfDelimiting request := by
  unfold request
  refine .bind inferInstance fun n => ?_
  split <;> infer_instance

/-- The tag of a response says where it ends. -/
instance : SelfDelimiting response := by
  unfold response
  refine .bind inferInstance fun n => ?_
  split <;> infer_instance

/-- A message about an event ends with its notification. -/
instance : SelfDelimiting eventMessage := by
  unfold eventMessage
  infer_instance

end Reader

/-! ## Frames -/

/-- An operation stands for one number. -/
lemma Opcode.ofNumber?_eq_some_iff {n : UInt16} {o : Opcode} :
    Opcode.ofNumber? n = some o ↔ n = o.number := by
  constructor
  · intro known
    have same := List.find?_some known
    exact (of_decide_eq_true same).symm
  · rintro rfl
    exact Opcode.ofNumber?_number o

/-- A failure that blames what the other side has sent. -/
def Refused {α : Type} (answer : Except Failure α) : Prop :=
  ∃ text, answer = .error (.protocol text)

namespace Frame

variable {α : Type} {f g : Frame} {reader : Reader α} {r : Request} {a : α}

/-- A payload holds what a reader reads when it uses it up. -/
lemma read_eq_ok_iff : f.read reader = .ok a ↔ reader.complete f.payload = .ok a := by
  unfold read
  split <;> simp_all

/-- What the reader does not accept is refused. -/
lemma refused_of_complete {e : Malformed} (malformed : reader.complete f.payload = .error e) :
    Refused (f.read reader) := by
  unfold read
  rw [malformed]
  exact ⟨_, rfl⟩

/-- A frame holds a request if its header says so and names the operation of its payload. -/
lemma toRequest_eq_ok_iff :
    f.toRequest = .ok r ↔
      f.kind = .request ∧ f.read Reader.request = .ok r ∧ f.opcode = r.opcode.number := by
  unfold toRequest
  by_cases right : f.kind = .request
  case neg => simp [right]
  rw [if_neg (not_not.mpr right), and_iff_right right]
  cases known : Opcode.ofNumber? f.opcode with
  | none =>
    refine ⟨nofun, fun ⟨_, number⟩ => ?_⟩
    rw [Opcode.ofNumber?_eq_some_iff.mpr number] at known
    cases known
  | some opcode =>
    rw [Opcode.ofNumber?_eq_some_iff.mp known]
    constructor
    · intro accepted
      obtain ⟨found, payload, agrees⟩ := bind_eq_ok.mp accepted
      by_cases same : found.opcode = opcode
      · rw [if_neg (not_not.mpr same)] at agrees
        cases agrees
        exact ⟨payload, congrArg _ same.symm⟩
      · simp [same] at agrees
    · rintro ⟨payload, number⟩
      have same : r.opcode = opcode := by
        have known' := Opcode.ofNumber?_number r.opcode
        rw [← number, Opcode.ofNumber?_number] at known'
        exact (Option.some.inj known').symm
      exact bind_eq_ok.mpr ⟨r, payload, by simp [same, pure, Except.pure]⟩

/-- Whatever is wrong with the frame of a request is blamed on the sender. -/
lemma toRequest_refused (payload : Refused (f.read Reader.request)) : Refused f.toRequest := by
  obtain ⟨text, payload⟩ := payload
  unfold toRequest
  split
  · exact ⟨_, rfl⟩
  split
  · exact ⟨_, rfl⟩
  · rw [payload]
    exact ⟨text, rfl⟩

/-- A frame whose payload is no response is not one. -/
lemma toResponse_refused (payload : Refused (f.read Reader.response)) : Refused f.toResponse := by
  unfold toResponse
  split
  · exact ⟨_, rfl⟩
  · exact payload

/-- A frame whose payload is no event is not one. -/
lemma toEvent_refused (payload : Refused (f.read Reader.eventMessage)) : Refused f.toEvent := by
  unfold toEvent
  split
  · exact ⟨_, rfl⟩
  · exact payload

/-- A payload that goes on where another ends, or ends where it goes on, is refused if that other
one is accepted. -/
lemma read_refused [Reader.SelfDelimiting reader] (accepted : f.read reader = .ok a)
    (other : g.payload ≠ f.payload) (part : g.payload <+: f.payload ∨ f.payload <+: g.payload) :
    Refused (g.read reader) := by
  obtain ⟨e, malformed⟩ := Reader.complete_eq_error (read_eq_ok_iff.mp accepted) other part
  exact refused_of_complete malformed

/-- Messages are read back from their frames, no payload that is accepted is a part of another, and
a frame is taken for the request of its payload exactly if its header agrees. -/
theorem messages_uniquely_decodable :
    ((∀ id r, r.Counted → (ofRequest id r).toRequest = .ok r) ∧
      (∀ id opcode r, r.Counted → (ofResponse id opcode r).toResponse = .ok r) ∧
      ∀ m, CountedNotification m.notification → (ofEvent m).toEvent = .ok m) ∧
    (∀ f g : Frame, g.payload ≠ f.payload →
      g.payload <+: f.payload ∨ f.payload <+: g.payload →
      (∀ r, f.read Reader.request = .ok r → Refused (g.read Reader.request) ∧ Refused g.toRequest) ∧
      (∀ r, f.read Reader.response = .ok r →
        Refused (g.read Reader.response) ∧ Refused g.toResponse) ∧
      ∀ m, f.read Reader.eventMessage = .ok m →
        Refused (g.read Reader.eventMessage) ∧ Refused g.toEvent) ∧
    ∀ (f : Frame) r, f.toRequest = .ok r ↔
      f.kind = .request ∧ f.read Reader.request = .ok r ∧ f.opcode = r.opcode.number := by
  refine ⟨⟨?_, ?_, ?_⟩, ?_, ?_⟩
  · intro id r counted
    refine toRequest_eq_ok_iff.mpr ⟨rfl, read_eq_ok_iff.mpr ?_, rfl⟩
    exact (Reader.reads_request counted).complete
  · intro id opcode r counted
    exact read_eq_ok_iff.mpr (Reader.reads_response counted).complete
  · intro m counted
    exact read_eq_ok_iff.mpr (Reader.reads_eventMessage counted).complete
  · intro f g other part
    refine ⟨fun r accepted => ?_, fun r accepted => ?_, fun m accepted => ?_⟩
    · have refused := read_refused accepted other part
      exact ⟨refused, toRequest_refused refused⟩
    · have refused := read_refused accepted other part
      exact ⟨refused, toResponse_refused refused⟩
    · have refused := read_refused accepted other part
      exact ⟨refused, toEvent_refused refused⟩
  · intro f r
    exact toRequest_eq_ok_iff

/-- A request with a name beyond ASCII; and a frame whose opcode is written in more bytes than it
needs, cut short and extended. -/
theorem messages_uniquely_decodable_wide :
    ((Request.attrSet 1 300 "ä" [0, 255]).Counted ∧
      (ofRequest 7 (.attrSet 1 300 "ä" [0, 255])).toRequest =
        .ok (.attrSet 1 300 "ä" [0, 255])) ∧
    (read Reader.request ⟨.request, 0x40, 1, [251, 17, 0]⟩ = .ok .status ∧
      Refused (toRequest ⟨.request, 0x40, 1, [251, 17]⟩)) ∧
    Refused (toRequest ⟨.request, 0x40, 1, [251, 17, 0, 0]⟩) := by
  have counted : (Request.attrSet 1 300 "ä" [0, 255]).Counted := ⟨by decide, by decide⟩
  have wide : read Reader.request ⟨.request, 0x40, 1, [251, 17, 0]⟩ = .ok .status := by decide
  have parts (q : List UInt8) :=
    messages_uniquely_decodable.2.1 ⟨.request, 0x40, 1, [251, 17, 0]⟩ ⟨.request, 0x40, 1, q⟩
  refine ⟨⟨counted, messages_uniquely_decodable.1.1 7 _ counted⟩, ⟨wide, ?_⟩, ?_⟩
  · exact ((parts [251, 17] (by decide) (.inl (by decide))).1 _ wide).2
  · exact ((parts [251, 17, 0, 0] (by decide) (.inr (by decide))).1 _ wide).2

end Frame

end Coordination.Wire
