import Coordination.Proofs.Coordinator.Atomicity
import Coordination.Proofs.Coordinator.TextSizes
import Coordination.Proofs.Endpoint.FrontDoor
import Coordination.Proofs.Wire.Frame
import Coordination.Settings.Basic

/-!
# Room for answers

A connection has one limit for the frames that it reads and for those that it writes. What is
answered may be longer than what was asked: a refusal repeats the path of the request, a list of
names grows with the node, and a value is as long as it was set. `Room` says how much has to be
spared for that; without it the limit is too small for the answer, whatever the limit is.
-/

namespace Coordination

open Text

/-! ## What needs room -/

namespace Wire

/-- Most answers are a tag and up to three numbers. -/
lemma length_response (now : Instant) (answer : Answer) :
    (answer.response now).encode.length ≤ 36 ∨ (∃ names, answer = .names names) ∨
      ∃ bytes, answer = .value bytes := by
  have tag : ∀ n, (varint n).length ≤ 9 := length_varint
  have word : ∀ n, (word64 n).length ≤ 9 := length_word64
  have bool : ∀ b, (bool b).length ≤ 9 := by decide
  have status : ∀ reply, (lockReply reply).length ≤ 18 := by
    rintro (n | _)
    · exact List.length_append.trans_le (Nat.add_le_add (tag 0) (word n))
    · decide
  cases answer with
  | names names => exact .inr (.inl ⟨names, rfl⟩)
  | value bytes => exact .inr (.inr ⟨bytes, rfl⟩)
  | lock s =>
    left
    cases s <;> simp only [Answer.response, Response.encode, List.length_append] <;> grind
  | _ =>
    left
    simp only [Answer.response, Response.encode, List.length_append]
    grind

end Wire

/-- There is room for a frame and for what is said to it: for the texts that a refusal may repeat,
and for the lists and values that may be asked for. -/
structure Room (limit : Nat) (s : State) (f : Wire.Frame) : Prop where
  least : 411 ≤ limit
  frame : f.payload.length + 171 ≤ limit
  paths : ∀ id n, s.tree.get? id = some n → Utf8.size n.path + 171 ≤ limit
  faults : ∀ kind detail, s.store.fault kind = some (.refuse detail) ∨
    s.store.fault kind = some (.corrupt detail) → Utf8.size detail + 171 ≤ limit
  children : ∀ id n, s.tree.get? id = some n →
    (Wire.Response.names n.children.keys).encode.length ≤ limit
  attrs : ∀ id n, s.tree.get? id = some n →
    (Wire.Response.names n.attrs.keys).encode.length ≤ limit
  values : ∀ id n name bytes, s.tree.get? id = some n → n.attrs.get? name = some bytes →
    (Wire.Response.value bytes).encode.length ≤ limit

variable {limit : Nat} {s s' : State} {f : Wire.Frame} {r : Wire.Request} {now : Instant}
variable {callback : Callback} {call : Call} {answer : Answer}

/-- Where there is room, texts are so much shorter. -/
lemma Room.brief (room : Room limit s f) (silent : s.outbox = []) : s.Brief (limit - 171) where
  paths := fun id n found => Nat.le_sub_of_add_le (room.paths id n found)
  news := by
    intro event owner told
    rw [silent] at told
    cases told
  faults := by
    intro kind fault set why eq
    cases fault with
    | refuse detail =>
      obtain rfl := Interruption.refused.inj eq
      exact Nat.le_sub_of_add_le (room.faults kind detail (.inl set))
    | corrupt detail =>
      obtain rfl := Interruption.refused.inj eq
      exact Nat.le_sub_of_add_le (room.faults kind detail (.inr set))
    | crash => cases eq

/-- There is room for what a call answers. -/
lemma Room.response_fits (room : Room limit s f) (done : s.Done now call answer s') :
    (answer.response now).encode.length ≤ limit := by
  rcases Wire.length_response now answer with short | ⟨names, rfl⟩ | ⟨bytes, rfl⟩
  · exact short.trans (le_trans (by decide) room.least)
  · cases done with
    | readdir owns node => exact room.children _ _ node
    | attrList owns node => exact room.attrs _ _ node
  · cases done with
    | attrGet owns node found => exact room.values _ _ _ _ node found

/-- There is room for what refuses a request, if the texts in it are so much shorter. -/
lemma Room.failure_fits (room : Room limit s f) {why : Failure} (brief : why.Brief (limit - 171)) :
    (Wire.Response.ofFailure why).encode.length ≤ limit := by
  have least := room.least
  have length := Wire.length_ofFailure brief
  omega

namespace Coordinator

variable {allowed : Set Fault} {c : Coordinator}

/-- There is room for the reply to a frame. -/
lemma payload_le_of_answerFrame (sound : c.state.Sound) (silent : c.state.outbox = [])
    (room : Room limit c.state f) (counted : Wire.Reader.Counted f.payload) {reply : Wire.Frame}
    (answered : (c.answerFrame now callback f).result = .ok reply) :
    reply.payload.length ≤ limit := by
  have least := room.least
  unfold answerFrame at answered
  split at answered
  case h_1 why malformed =>
    obtain rfl := Except.ok.inj answered
    obtain ⟨detail, rfl, short⟩ := Wire.Frame.brief_of_toRequest counted malformed
    exact room.failure_fits (short.trans (by omega))
  case h_2 r read =>
    dsimp only at answered
    split at answered
    case h_1 answer result =>
      obtain rfl := Except.ok.inj answered
      obtain ⟨s', done, -⟩ := done_of_ok sound result
      exact room.response_fits done
    case h_2 why result =>
      obtain rfl := Except.ok.inj answered
      have given : r.textSize ≤ limit - 171 :=
        (Wire.Frame.textSize_le read).trans (Nat.le_sub_of_add_le room.frame)
      exact room.failure_fits (brief_of_refusal sound (room.brief silent) given (by omega) result)
    case h_3 => cases answered

/-- There is room for what a frame causes to be told. -/
lemma event_fits (silent : c.state.outbox = []) (room : Room limit c.state f) {event : Event}
    {owner : Callback} (told : .deliver event owner ∈ (c.answerFrame now callback f).commands) :
    (Wire.EventMessage.mk (.ofNat event.handle.number) event.notification).encode.length ≤
      limit := by
  have least := room.least
  unfold answerFrame at told
  split at told
  case h_1 => cases told
  case h_2 r read =>
    have given : r.textSize ≤ limit - 171 :=
      (Wire.Frame.textSize_le read).trans (Nat.le_sub_of_add_le room.frame)
    have name := brief_of_commands (room.brief silent) given told
    have length := Wire.length_eventMessage ⟨.ofNat event.handle.number, event.notification⟩
    dsimp only at length
    omega

/-- Wherever there is room, the reply to a frame can be sent, and so can the events that the frame
causes. -/
theorem Reachable.answers_fit (reached : c.Reachable allowed) (fault : StoreCall → Option Fault)
    (now : Instant) (callback : Callback) (f : Wire.Frame) (limit : Nat)
    (counted : Wire.Reader.Counted f.payload)
    (room : Room limit (c.withFaults fault).state f) :
    let outcome := (c.withFaults fault).answerFrame now callback f
    (∀ reply, outcome.result = .ok reply → reply.encode limit = .ok reply.bytes) ∧
    ∀ event owner, .deliver event owner ∈ outcome.commands →
      let told := Wire.Frame.ofEvent ⟨.ofNat event.handle.number, event.notification⟩
      told.encode limit = .ok told.bytes := by
  have sound : (c.withFaults fault).state.Sound := reached.sound.withStore _
  have silent : (c.withFaults fault).state.outbox = [] := reached.outbox_eq_nil
  refine ⟨fun reply answered => ?_, fun event owner told => ?_⟩
  · have within := payload_le_of_answerFrame sound silent room counted answered
    exact Wire.Frame.encode_eq_ok_iff.mpr ⟨within, rfl⟩
  · exact Wire.Frame.encode_eq_ok_iff.mpr ⟨event_fits silent room told, rfl⟩

/-- A client that watches a directory makes another one in it. -/
theorem answers_fit_watched :
    let c := (after [.createSession, .openHandle ⟨1⟩ "/d" ⟨9⟩ .all (.process "a")]).withFaults
      fun _ => none
    let f := Wire.Frame.ofRequest 1 (.mkdir 1 "/d/x")
    let outcome := c.answerFrame 0 (.process "a") f
    let told := Wire.Frame.ofEvent ⟨1, .childAdded "x"⟩
    outcome.commands = [.deliver ⟨⟨1⟩, ⟨2⟩, .childAdded "x"⟩ (.process "a")] ∧
    (∃ reply, outcome.result = .ok reply ∧ reply.encode 1024 = .ok reply.bytes) ∧
    told.encode 1024 = .ok told.bytes := by
  intro c f outcome told
  have reached : (after [.createSession, .openHandle ⟨1⟩ "/d" ⟨9⟩ .all
    (.process "a")]).Reachable ∅ := reachable_after _
  have nodes : ∀ b ∈ c.state.tree.nodes.toList, Utf8.size b.2.path + 171 ≤ 1024 ∧
      (Wire.Response.names b.2.children.keys).encode.length ≤ 1024 ∧ b.2.attrs = .empty := by
    decide +kernel
  have node : ∀ id n, c.state.tree.get? id = some n → Utf8.size n.path + 171 ≤ 1024 ∧
      (Wire.Response.names n.children.keys).encode.length ≤ 1024 ∧ n.attrs = .empty :=
    fun id n found => nodes (id, n) (FinMap.get?_eq_some.mp found)
  have room : Room 1024 c.state f := by
    refine ⟨by decide, by decide, fun id n found => (node id n found).1, ?_,
      fun id n found => (node id n found).2.1, ?_, ?_⟩
    · rintro kind detail (set | set) <;> cases set
    · intro id n found
      rw [(node id n found).2.2]
      decide
    · intro id n name bytes found set
      rw [(node id n found).2.2] at set
      cases set
  have announced : outcome.commands = [.deliver ⟨⟨1⟩, ⟨2⟩, .childAdded "x"⟩ (.process "a")] := by
    decide +kernel
  have answered : outcome.result = .ok (.ofResponse 1 f.opcode .ok) := by decide +kernel
  obtain ⟨replies, events⟩ :=
    reached.answers_fit (fun _ => none) 0 (.process "a") f 1024 (by decide) room
  refine ⟨announced, ⟨_, answered, replies _ answered⟩, ?_⟩
  exact events ⟨⟨1⟩, ⟨2⟩, .childAdded "x"⟩ (.process "a") (announced ▸ List.mem_singleton_self _)

/-! ## Answers without room -/

/-- A text of so many letters. -/
def letters (n : Nat) : String := String.ofList (List.replicate n 'a')

/-- A request to make a directory, as long as the limit admits, at what is no path. -/
def overlong (limit : Nat) : Wire.Frame := .ofRequest 1 (.mkdir 1 (letters (limit - 11)))

/-- So many letters take so many bytes. -/
lemma size_letters (n : Nat) : Utf8.size (letters n) = n := by
  have letter : String.utf8EncodeChar 'a' = [0x61] := by decide
  rw [Utf8.size, Utf8.encode, letters, String.toList_ofList]
  induction n with
  | zero => rfl
  | succ n ih =>
    rw [List.replicate_succ, List.flatMap_cons, List.length_append, ih, letter]
    exact Nat.add_comm 1 n

/-- Letters without a slash are no path. -/
lemma isValid_letters (n : Nat) : Path.isValid (letters n) = false := by
  have list : (letters n).toList = List.replicate n 'a' := String.toList_ofList
  have notRoot : letters n ≠ Path.root := by
    intro same
    have slash : '/' ∈ List.replicate n 'a' := by
      rw [← list, same]
      decide
    exact absurd (List.eq_of_mem_replicate slash) (by decide)
  have noSlash : Path.components? (letters n) = none := by
    rw [Path.components?, list]
    cases n <;> rfl
  rw [Path.isValid, noSlash, beq_false_of_ne notRoot]
  rfl

/-- The frame itself is within the limit. -/
lemma fits_overlong (least : 11 ≤ limit) (narrow : limit < 2 ^ 32) :
    (overlong limit).Fits limit := by
  have marks : (Wire.varint 5 ++ Wire.word64 1).length = 2 := by decide
  have text : (Wire.text (letters (limit - 11))).length ≤ 9 + (limit - 11) := by
    rw [Wire.text, Wire.bytes, List.length_append]
    exact Nat.add_le_add (Wire.length_varint _) (size_letters _).le
  have within : (overlong limit).payload.length ≤ limit := by
    calc (overlong limit).payload.length
        = 2 + (Wire.text (letters (limit - 11))).length := by
          rw [← marks, ← List.length_append]; rfl
      _ ≤ limit := by omega
  exact ⟨within, within.trans_lt narrow⟩

/-- The frame is a request to create a directory under that name. -/
lemma toRequest_overlong (narrow : limit < 2 ^ 32) :
    (overlong limit).toRequest = .ok (.mkdir 1 (letters (limit - 11))) := by
  have counted : (Wire.Request.mkdir 1 (letters (limit - 11))).Counted := by
    have small : Utf8.size (letters (limit - 11)) < 2 ^ 64 := by
      rw [size_letters]
      omega
    exact small
  exact Wire.Frame.toRequest_eq_ok_iff.mpr
    ⟨rfl, Wire.Frame.read_eq_ok_iff.mpr (Wire.Reader.reads_request counted).complete, rfl⟩

/-- A path that is none is repeated to whoever asks for it. -/
lemma perform_mkdir_of_invalid (serving : c.halted = false) (usable : c.poisoned = false)
    {session : SessionId} {path : String} (live : c.state.Live session)
    (invalid : Path.isValid path = false) (now : Instant) :
    (c.perform now (.mkdir session path)).result = .error (.refused (.invalidPath path)) := by
  have run : ((Call.mkdir session path).op now).run c.state =
      (.error (.refused (.invalidPath path)), c.state.contacted session now) := by
    rw [Call.op, Op.run_bind, Op.mkdir, Op.run_bind, Op.run_touch live]
    dsimp only
    rw [Op.run_bind, Op.createNode, Op.run_bind, Op.run_get]
    dsimp only
    rw [Tree.checkCreate, Path.validate, invalid]
    rfl
  rw [perform_of_refused serving usable (by simp [Failure.IsFatal]) run]

/-- A path that is none is repeated, and more is said about it. -/
lemma lt_length_invalidPath (path : String) :
    Utf8.size path + 15 < (Wire.Response.ofFailure (.invalidPath path)).encode.length := by
  have front : Utf8.size "invalid path '" = 14 := by decide
  have back : Utf8.size "'" = 1 := by decide
  have tag : (Wire.varint 10).length = 1 := by decide
  have message : Utf8.size path + 15 ≤ (Wire.text ("invalid path '" ++ path ++ "'")).length := by
    rw [Wire.text, Wire.bytes, List.length_append]
    change Utf8.size path + 15 ≤ _ + Utf8.size ("invalid path '" ++ path ++ "'")
    rw [Utf8.size_append, Utf8.size_append, front, back]
    omega
  have whole : (Wire.Response.ofFailure (.invalidPath path)).encode =
      Wire.varint 10 ++ Wire.failureKind .invalidPath ++
        Wire.text ("invalid path '" ++ path ++ "'") := rfl
  rw [whole, List.length_append, List.length_append]
  omega

/-- What refuses a request is replied to it. -/
lemma answerFrame_of_refused {why : Failure} (read : f.toRequest = .ok r)
    (refused : (c.perform now (r.call callback)).result = .error (.refused why)) :
    (c.answerFrame now callback f).result = .ok (.ofResponse f.id f.opcode (.ofFailure why)) := by
  rw [answerFrame, read]
  dsimp only
  rw [refused]

/-- Whatever the limit, a request within it has an answer beyond it. -/
lemma answer_of_overlong (serving : c.halted = false) (usable : c.poisoned = false)
    (live : c.state.Live ⟨1⟩) (least : 11 ≤ limit) (narrow : limit < 2 ^ 32) (now : Instant)
    (callback : Callback) :
    ∃ reply, (c.answerFrame now callback (overlong limit)).result = .ok reply ∧
      limit < reply.payload.length := by
  have refused := perform_mkdir_of_invalid serving usable live (isValid_letters (limit - 11)) now
  have length := lt_length_invalidPath (letters (limit - 11))
  rw [size_letters] at length
  refine ⟨_, answerFrame_of_refused (toRequest_overlong narrow) refused, ?_⟩
  change limit < (Wire.Response.ofFailure _).encode.length
  omega

/-- Under the standard settings a client asks for a directory at what is no path, in a request as
long as it may be. The refusal is longer and cannot be sent. -/
theorem refusal_too_large :
    let limit := Settings.standard.maxFrameLength.toNat
    let c := after [.createSession]
    Settings.standard.validate = .ok () ∧ c.Reachable ∅ ∧
    Wire.Frame.scan limit (overlong limit).bytes = .ok (some (overlong limit, [])) ∧
    (overlong limit).toRequest = .ok (.mkdir 1 (letters (limit - 11))) ∧
    ∃ reply size, (c.answerFrame 0 (.connection "a" 0) (overlong limit)).result = .ok reply ∧
      reply.encode limit = .error (.payloadTooLarge size limit) := by
  intro limit c
  have least : 11 ≤ limit := by decide
  have narrow : limit < 2 ^ 32 := by decide
  have live : c.state.Live ⟨1⟩ := ⟨_, rfl, rfl⟩
  have taken : Wire.Frame.scan limit (overlong limit).bytes = .ok (some (overlong limit, [])) :=
    Wire.Frame.scan_eq_some_iff.mpr ⟨(List.append_nil _).symm, fits_overlong least narrow⟩
  obtain ⟨reply, answered, beyond⟩ :=
    answer_of_overlong rfl rfl live least narrow 0 (.connection "a" 0)
  exact ⟨rfl, reachable_after _, taken, toRequest_overlong narrow, reply, _, answered,
    if_pos beyond⟩

end Coordinator

end Coordination
