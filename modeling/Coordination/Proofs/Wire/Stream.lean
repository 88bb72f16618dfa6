import Coordination.Proofs.Failure
import Coordination.Proofs.Wire.Frame

/-!
# Streams of frames

Frames are written one behind the other and read off a buffer that grows as bytes arrive. What the
scanner makes of a buffer has one description (`Frame.scanAll_eq_iff`): the buffer is the bytes of
the frames found, then bytes off which no frame can be taken. Where the bytes were cut on their way
does not enter it (`Stream.Decoded`), and what was written is what is found, unless a payload
outgrew the length field of its header (`Frame.bytes_eq_cut`).
-/

namespace Coordination.Wire

variable {limit : Nat}

namespace Frame

variable {buffer rest out : List UInt8} {f : Frame} {frames : List Frame}
  {failure : Option FrameError}

/-! ## Frames in a row -/

/-- Writes frames behind what is in the buffer, as long as none is refused. -/
def writeAll (limit : Nat) (buffer : List UInt8) (frames : List Frame) :
    Except FrameError (List UInt8) :=
  frames.foldlM (fun buffer f => return buffer ++ (← f.encode limit)) buffer

/-- The writer looks at nothing but the limit. -/
lemma writeAll_eq_ok_iff :
    writeAll limit buffer frames = .ok out ↔
      (∀ f ∈ frames, f.payload.length ≤ limit) ∧ out = buffer ++ frames.flatMap bytes := by
  induction frames generalizing buffer with
  | nil => simp [writeAll, pure, Except.pure, eq_comm]
  | cons f frames ih =>
    rw [writeAll, List.foldlM_cons, bind_eq_ok]
    constructor
    · rintro ⟨grown, written, others⟩
      obtain ⟨_, accepted, ⟨⟩⟩ := bind_eq_ok.mp written
      obtain ⟨within, rfl⟩ := encode_eq_ok_iff.mp accepted
      obtain ⟨all, rfl⟩ := ih.mp others
      refine ⟨List.forall_mem_cons.mpr ⟨within, all⟩, ?_⟩
      rw [List.flatMap_cons, List.append_assoc]
    · rintro ⟨all, rfl⟩
      obtain ⟨within, all⟩ := List.forall_mem_cons.mp all
      have accepted := encode_eq_ok_iff.mpr ⟨within, rfl⟩
      refine ⟨buffer ++ f.bytes, by rw [accepted]; rfl, ih.mpr ⟨all, ?_⟩⟩
      rw [List.flatMap_cons, List.append_assoc]

/-! ## Reading them back -/

/-- Why the scanner stops: the header in front is damaged, or bytes are missing. -/
def Stops (limit : Nat) (rest : List UInt8) : Option FrameError → Prop
  | some e => scan limit rest = .error e
  | none => scan limit rest = .ok none

/-- Where scanning stops no frame is read. -/
lemma scanAll_of_stops (stops : Stops limit buffer failure) :
    scanAll limit buffer = ([], failure, buffer) := by
  rw [scanAll]
  cases failure with
  | none => split <;> simp_all [Stops]
  | some e => split <;> simp_all [Stops]

/-- A frame in front is found first. -/
lemma scanAll_append (fits : f.Fits limit) (rest : List UInt8) :
    scanAll limit (f.bytes ++ rest) = (f :: (scanAll limit rest).1, (scanAll limit rest).2) := by
  have taken : scan limit (f.bytes ++ rest) = .ok (some (f, rest)) :=
    scan_eq_some_iff.mpr ⟨rfl, fits⟩
  rw [scanAll]
  split <;> simp_all

/-- The scanner finds the frames of which a buffer is made, up to where no frame can be taken. -/
lemma scanAll_eq_iff :
    scanAll limit buffer = (frames, failure, rest) ↔
      buffer = frames.flatMap bytes ++ rest ∧ (∀ f ∈ frames, f.Fits limit) ∧
        Stops limit rest failure := by
  constructor
  · intro found
    induction buffer using scanAll.induct limit generalizing frames with
    | case1 buffer e damaged =>
      have stops : Stops limit buffer (some e) := damaged
      rw [scanAll_of_stops stops] at found
      cases found
      exact ⟨rfl, List.forall_mem_nil _, stops⟩
    | case2 buffer waits =>
      have stops : Stops limit buffer none := waits
      rw [scanAll_of_stops stops] at found
      cases found
      exact ⟨rfl, List.forall_mem_nil _, stops⟩
    | case3 buffer f tail taken later left behind ih =>
      obtain ⟨rfl, fits⟩ := scan_eq_some_iff.mp taken
      rw [scanAll_append fits, behind] at found
      cases found
      obtain ⟨cut, others, stops⟩ := ih behind
      refine ⟨?_, List.forall_mem_cons.mpr ⟨fits, others⟩, stops⟩
      rw [List.flatMap_cons, List.append_assoc, ← cut]
  · rintro ⟨rfl, fits, stops⟩
    induction frames with
    | nil => exact scanAll_of_stops stops
    | cons f frames ih =>
      obtain ⟨first, others⟩ := List.forall_mem_cons.mp fits
      rw [List.flatMap_cons, List.append_assoc, scanAll_append first, ih others]

/-- Frames that were written are found again, as long as no payload outgrows the length field. -/
theorem scanAll_written (written : writeAll limit [] frames = .ok out) :
    (scanAll limit out = (frames, none, []) ↔ ∀ f ∈ frames, f.payload.length < 2 ^ 32) ∧
      (limit < 2 ^ 32 → scanAll limit out = (frames, none, [])) := by
  obtain ⟨within, rfl⟩ := writeAll_eq_ok_iff.mp written
  have found : scanAll limit ([] ++ frames.flatMap bytes) = (frames, none, []) ↔
      ∀ f ∈ frames, f.payload.length < 2 ^ 32 := by
    rw [scanAll_eq_iff]
    constructor
    · rintro ⟨_, fits, _⟩ f mem
      exact (fits f mem).narrow
    · intro narrow
      exact ⟨by simp, fun f mem => ⟨within f mem, narrow f mem⟩, scan_nil⟩
  refine ⟨found, fun small => found.mpr fun f mem => ?_⟩
  exact (within f mem).trans_lt small

/-- Two frames are written and read back. -/
theorem scanAll_written_twice :
    writeAll 2 [] [⟨.request, 1, 7, [0]⟩, ⟨.event, 256, 0, [5, 4]⟩] =
        .ok (bytes ⟨.request, 1, 7, [0]⟩ ++ bytes ⟨.event, 256, 0, [5, 4]⟩) ∧
      scanAll 2 (bytes ⟨.request, 1, 7, [0]⟩ ++ bytes ⟨.event, 256, 0, [5, 4]⟩) =
        ([⟨.request, 1, 7, [0]⟩, ⟨.event, 256, 0, [5, 4]⟩], none, []) := by
  have written : writeAll 2 [] [⟨.request, 1, 7, [0]⟩, ⟨.event, 256, 0, [5, 4]⟩] =
      .ok (bytes ⟨.request, 1, 7, [0]⟩ ++ bytes ⟨.event, 256, 0, [5, 4]⟩) := by decide
  exact ⟨written, (scanAll_written written).2 (by decide)⟩

/-- A larger payload is announced with what is left of its size in four bytes; the scanner stops
there and takes the bytes behind for the next header. -/
lemma bytes_eq_cut (f : Frame) :
    f.bytes = bytes { f with payload := f.payload.take (f.payload.length % 2 ^ 32) } ++
      f.payload.drop (f.payload.length % 2 ^ 32) := by
  have size : (f.payload.take (f.payload.length % 2 ^ 32)).length = f.payload.length % 2 ^ 32 := by
    rw [List.length_take, Nat.min_eq_left (Nat.mod_le ..)]
  have announced : bigEndian 4 (f.payload.length % 2 ^ 32) = bigEndian 4 f.payload.length :=
    bigEndian_mod 4 f.payload.length
  simp only [bytes, header, Header.bytes, size, announced, List.append_assoc,
    List.take_append_drop]

/-- A request for the state of the service with four gibibytes of zeros behind it. -/
def oversized : Frame := ⟨.request, Opcode.status.number, 1, List.replicate (2 ^ 32) 0⟩

/-- Zeros are no header. -/
lemma scan_zeros (n : Nat) :
    scan limit (List.replicate (headerSize + n) 0) = .error (.invalidMagic 0) := by
  have refused : Header.check limit (List.replicate headerSize 0) = .error (.invalidMagic 0) := rfl
  rw [List.replicate_add, scan_append (List.length_replicate ..), refused]
  rfl

/-- The writer accepts a frame that the scanner does not give back: it finds an empty one and then
damage. -/
theorem oversized_lost :
    writeAll (2 ^ 32) [] [oversized] = .ok oversized.bytes ∧
      oversized.bytes.take 40 =
        [0x48, 0x59, 0x53, 0x50, 1, 1, 0, 0x40, 0, 0, 0, 0, 0, 0, 0, 1, 0, 0, 0, 0] ++
          List.replicate 20 0 ∧
      scanAll (2 ^ 32) oversized.bytes =
        ([{ oversized with payload := [] }], some (.invalidMagic 0), oversized.payload) := by
  have size : oversized.payload.length = 2 ^ 32 := List.length_replicate ..
  have zeros : oversized.payload = List.replicate (headerSize + (2 ^ 32 - headerSize)) 0 := rfl
  have cut : oversized.bytes = bytes { oversized with payload := [] } ++ oversized.payload := by
    have cut := bytes_eq_cut oversized
    rwa [size, Nat.mod_self, List.take_zero, List.drop_zero] at cut
  have damaged : Stops (2 ^ 32) oversized.payload (some (.invalidMagic 0)) := by
    rw [zeros]
    exact scan_zeros _
  have single (f : Frame) : [f].flatMap bytes = f.bytes := List.flatMap_singleton ..
  refine ⟨writeAll_eq_ok_iff.mpr ⟨List.forall_mem_singleton.mpr size.le, ?_⟩, ?_,
    scanAll_eq_iff.mpr ⟨?_, List.forall_mem_singleton.mpr ⟨Nat.zero_le _, ?_⟩, damaged⟩⟩
  · rw [single, List.nil_append]
  · rw [cut, zeros, List.replicate_add, ← List.append_assoc]
    exact List.take_left' (by simp [bytes, headerSize])
  · rw [single, cut]
  · decide

end Frame

/-! ## Bytes that arrive in pieces -/

/-- A buffer that is filled from outside, and what the scanner has made of it so far. -/
structure Stream where
  results : List (Except FrameError Frame)
  unread : List UInt8

namespace Stream

variable {s : Stream} {received : List UInt8}

/-- A stream of which nothing has been received. -/
def start : Stream := ⟨[], []⟩

/-- Bytes arrive; the scanner runs until it asks for more or finds damage. -/
def receive (limit : Nat) (s : Stream) (chunk : List UInt8) : Stream :=
  let (frames, failure, rest) := Frame.scanAll limit (s.unread ++ chunk)
  ⟨s.results ++ frames.map .ok ++ failure.toList.map .error, rest⟩

/-- Chunks are received one after another. -/
def receiveAll (limit : Nat) (s : Stream) (chunks : List (List UInt8)) : Stream :=
  chunks.foldl (receive limit) s

/-- The frames before the first failure. -/
def framesOf : List (Except FrameError Frame) → List Frame
  | .ok f :: results => f :: framesOf results
  | _ => []

/-- The first failure. -/
def failureOf? : List (Except FrameError Frame) → Option FrameError
  | [] => none
  | .ok _ :: results => failureOf? results
  | .error e :: _ => some e

/-- The frames that were decoded so far. -/
def frames (s : Stream) : List Frame := framesOf s.results

/-- The failure the stream has ended with, if any. -/
def failure? (s : Stream) : Option FrameError := failureOf? s.results

/-- Frames in front of other results. -/
@[simp] lemma framesOf_append (frames : List Frame) (results : List (Except FrameError Frame)) :
    framesOf (frames.map .ok ++ results) = frames ++ framesOf results := by
  induction frames with
  | nil => rfl
  | cons f frames ih => rw [List.map_cons, List.cons_append, framesOf, ih, List.cons_append]

/-- Frames in front of other results bring no failure. -/
@[simp] lemma failureOf?_append (frames : List Frame) (results : List (Except FrameError Frame)) :
    failureOf? (frames.map .ok ++ results) = failureOf? results := by
  induction frames with
  | nil => rfl
  | cons f frames ih => rw [List.map_cons, List.cons_append, failureOf?, ih]

/-- A list of frames is one. -/
@[simp] lemma framesOf_map (frames : List Frame) : framesOf (frames.map .ok) = frames := by
  simpa [framesOf] using framesOf_append frames []

/-- Frames alone are no failure. -/
@[simp] lemma failureOf?_map (frames : List Frame) : failureOf? (frames.map .ok) = none := by
  simpa [failureOf?] using failureOf?_append frames []

/-- The results are what a scan of all bytes received finds, the last of it repeated if it is a
failure. -/
inductive Decoded (limit : Nat) (received : List UInt8) : Stream → Prop where
  | waiting {frames rest} :
    Frame.scanAll limit received = (frames, none, rest) →
    Decoded limit received ⟨frames.map .ok, rest⟩
  | broken {frames e rest} (n : Nat) :
    Frame.scanAll limit received = (frames, some e, rest) →
    Decoded limit received ⟨frames.map .ok ++ List.replicate (n + 1) (.error e), rest⟩

/-- At first nothing is received and nothing decoded. -/
lemma Decoded.start : Decoded limit [] start := by
  have stops : Frame.Stops limit [] none := Frame.scan_nil
  exact .waiting (Frame.scanAll_of_stops stops)

/-- Another chunk is received and decoded. -/
lemma Decoded.receive (decoded : Decoded limit received s) (chunk : List UInt8) :
    Decoded limit (received ++ chunk) (s.receive limit chunk) := by
  cases decoded with
  | @waiting frames rest found =>
    obtain ⟨cut, fits, _⟩ := Frame.scanAll_eq_iff.mp found
    rcases next : Frame.scanAll limit (rest ++ chunk) with ⟨later, failure, left⟩
    obtain ⟨cut', fits', stops⟩ := Frame.scanAll_eq_iff.mp next
    have whole : Frame.scanAll limit (received ++ chunk) = (frames ++ later, failure, left) := by
      refine Frame.scanAll_eq_iff.mpr ⟨?_, ?_, stops⟩
      · rw [cut, List.append_assoc, cut', List.flatMap_append, List.append_assoc]
      · intro f mem
        exact (List.mem_append.mp mem).elim (fits f) (fits' f)
    rw [Stream.receive, next]
    cases failure with
    | none => simpa using Decoded.waiting whole
    | some e => simpa using Decoded.broken 0 whole
  | @broken frames e rest n found =>
    obtain ⟨cut, fits, damaged⟩ := Frame.scanAll_eq_iff.mp found
    have again : Frame.Stops limit (rest ++ chunk) (some e) :=
      Frame.scan_append_of_error damaged chunk
    have whole : Frame.scanAll limit (received ++ chunk) = (frames, some e, rest ++ chunk) :=
      Frame.scanAll_eq_iff.mpr ⟨by rw [cut, List.append_assoc], fits, again⟩
    rw [Stream.receive, Frame.scanAll_of_stops again]
    simpa [List.append_assoc, ← List.replicate_succ'] using Decoded.broken (n + 1) whole

/-- Chunks are decoded as their concatenation is. -/
lemma Decoded.receiveAll (decoded : Decoded limit received s) (chunks : List (List UInt8)) :
    Decoded limit (received ++ chunks.flatten) (s.receiveAll limit chunks) := by
  induction chunks generalizing received s with
  | nil => simpa [Stream.receiveAll] using decoded
  | cons chunk chunks ih =>
    rw [List.flatten_cons, ← List.append_assoc]
    exact ih (decoded.receive chunk)

/-- Frames, failure and unread bytes are those of a scan of all bytes received. -/
lemma Decoded.scanAll (decoded : Decoded limit received s) :
    Frame.scanAll limit received = (s.frames, s.failure?, s.unread) := by
  cases decoded with
  | waiting found => simp [found, Stream.frames, failure?]
  | broken n found =>
    simp [found, Stream.frames, failure?, framesOf, failureOf?, List.replicate_succ]

/-- After damage nothing comes but its failure. -/
lemma Decoded.results (decoded : Decoded limit received s) {e : FrameError}
    (failed : s.failure? = some e) :
    ∃ n, s.results = s.frames.map .ok ++ List.replicate n (.error e) := by
  cases decoded with
  | waiting found => simp [failure?] at failed
  | @broken frames found rest n _ =>
    obtain rfl : found = e := by simpa [failure?, failureOf?, List.replicate_succ] using failed
    exact ⟨n + 1, by simp [Stream.frames, framesOf, List.replicate_succ]⟩

/-- The frames of a stream are written as the bytes that were used, and damage is final: it comes
after the frames and is all that comes from then on. -/
structure Faithful (limit : Nat) (received : List UInt8) (s : Stream) : Prop where
  written : ∃ used, Frame.writeAll limit [] s.frames = .ok used ∧ received = used ++ s.unread
  damaged : ∀ e, s.failure? = some e →
    (∃ n, s.results = s.frames.map .ok ++ List.replicate n (.error e)) ∧
      ∀ more, Frame.scan limit (s.unread ++ more) = .error e ∧
        s.receive limit more = ⟨s.results ++ [.error e], s.unread ++ more⟩

/-- A stream whose state is that of the bytes received is faithful to them. -/
lemma Decoded.faithful (decoded : Decoded limit received s) : s.Faithful limit received := by
  obtain ⟨cut, fits, stops⟩ := Frame.scanAll_eq_iff.mp decoded.scanAll
  constructor
  case written =>
    exact ⟨_, Frame.writeAll_eq_ok_iff.mpr ⟨fun f mem => (fits f mem).within, rfl⟩, cut⟩
  case damaged =>
    intro e failed
    refine ⟨decoded.results failed, fun more => ?_⟩
    rw [failed] at stops
    have again : Frame.Stops limit (s.unread ++ more) (some e) :=
      Frame.scan_append_of_error stops more
    refine ⟨again, ?_⟩
    rw [Stream.receive, Frame.scanAll_of_stops again]
    simp

/-- Wherever a stream is cut, the same frames, the same failure and the same unread bytes come out
of it; the frames are written as the bytes that were used; and damage is final. -/
theorem cut_independent (limit : Nat) (chunks : List (List UInt8)) :
    ((start.receiveAll limit chunks).frames = (start.receive limit chunks.flatten).frames ∧
      (start.receiveAll limit chunks).failure? = (start.receive limit chunks.flatten).failure? ∧
      (start.receiveAll limit chunks).unread = (start.receive limit chunks.flatten).unread) ∧
    (start.receiveAll limit chunks).Faithful limit chunks.flatten := by
  have pieces : Decoded limit chunks.flatten (start.receiveAll limit chunks) :=
    Decoded.start.receiveAll chunks
  have once : Decoded limit chunks.flatten (start.receive limit chunks.flatten) :=
    Decoded.start.receive chunks.flatten
  have same := pieces.scanAll.symm.trans once.scanAll
  simp only [Prod.mk.injEq] at same
  exact ⟨same, pieces.faithful⟩

end Stream

end Coordination.Wire
