import Coordination.Proofs.Wire.Message

/-!
# How long messages are

Numbers take few bytes, and so does what surrounds the texts of a message. The texts of a request
are part of its payload. What is said of a frame that holds no request is short, whatever the frame.
-/

namespace Coordination

/-! ## Texts -/

namespace Text.Utf8

/-- The number of bytes of a text. -/
def size (s : String) : Nat := (encode s).length

variable {s t : String}

/-- Sizes add up. -/
lemma size_append : size (s ++ t) = size s + size t := by
  simp only [size, encode, String.toList_append, List.flatMap_append, List.length_append]

/-- A character takes at most four bytes. -/
lemma size_ofList_le (cs : List Char) : size (String.ofList cs) ≤ 4 * cs.length := by
  rw [size, encode, String.toList_ofList]
  induction cs with
  | nil => exact Nat.le_refl 0
  | cons c cs ih =>
    have first : (String.utf8EncodeChar c).length ≤ 4 :=
      (String.length_utf8EncodeChar c).trans_le c.utf8Size_le_four
    rw [List.flatMap_cons, List.length_append, List.length_cons]
    omega

/-- A number is as long as its digits, of which there are no more than its bound allows. -/
lemma size_repr {n : Nat} (width : Nat) (positive : 0 < width) (small : n < 10 ^ width) :
    size n.repr ≤ 4 * width := by
  have digits : (Nat.toDigits 10 n).length ≤ width := Nat.toDigits_length 10 n width positive small
  exact (size_ofList_le _).trans (Nat.mul_le_mul_left 4 digits)

/-- A number of 64 bits has at most twenty digits. -/
lemma size_word {n : Nat} (small : n < 2 ^ 64) : size n.repr ≤ 80 :=
  size_repr 20 (by decide) (small.trans (by decide))

/-- A number in hexadecimal has a fixed width and a mark. -/
lemma size_number (width n : Nat) : size (Hex.number width n) ≤ 4 * width + 2 := by
  have digits : ∀ n, (Hex.digits width n).length = width := by
    induction width with
    | zero => exact fun _ => rfl
    | succ width ih =>
      intro n
      rw [Hex.digits, List.length_append, ih]
      rfl
  have mark : size "0x" = 2 := by decide
  have number := size_ofList_le (Hex.digits width n)
  rw [digits] at number
  rw [Hex.number, size_append, mark]
  omega

/-- A text between two others of few words. -/
lemma size_between {front back : String} {bound : Nat} (short : size s ≤ bound)
    (few : size front + size back ≤ 64 := by decide) :
    size (front ++ s ++ back) ≤ bound + 64 := by
  rw [size_append, size_append]
  omega

/-- A text behind another of few words. -/
lemma size_behind {front : String} {bound : Nat} (short : size s ≤ bound)
    (few : size front ≤ 64 := by decide) : size (front ++ s) ≤ bound + 64 := by
  rw [size_append]
  omega

end Text.Utf8

open Text.Utf8

/-! ## Failures -/

/-- The failure names no more than a text of so many bytes or a number of 64 bits. -/
def Failure.Brief (bound : Nat) : Failure → Prop
  | .protocol text | .noSuchNode text | .noSuchParent text | .nodeExists text | .nodeNotEmpty text
  | .lockHeld text | .noSuchAttr text | .notADirectory text | .invalidPath text | .store text
  | .corrupted text => size text ≤ bound
  | .badHandle handle | .alreadyHolding handle | .notLockHolder handle => handle.number < 2 ^ 64
  | .noSuchSession session => session.number < 2 ^ 64
  | .invalidLockMode _ | .busy => True

/-- What is said of a brief failure is little longer than the text in it. -/
lemma Failure.Brief.size_message {bound : Nat} {why : Failure} (brief : why.Brief bound) :
    size why.message ≤ bound + 144 := by
  have text : bound + 64 ≤ bound + 144 := Nat.add_le_add_left (by decide) bound
  have number : 80 + 64 ≤ bound + 144 := Nat.le_add_left ..
  cases why with
  | protocol | store | corrupted => exact (size_behind brief).trans text
  | noSuchNode | noSuchParent | nodeExists | nodeNotEmpty | lockHeld | noSuchAttr | notADirectory
  | invalidPath => exact (size_between brief).trans text
  | badHandle | noSuchSession => exact (size_behind (size_word brief)).trans number
  | alreadyHolding | notLockHolder => exact (size_between (size_word brief)).trans number
  | invalidLockMode mode =>
    have short : size (Failure.invalidLockMode mode).message ≤ 80 + 64 := by cases mode <;> decide
    exact short.trans number
  | busy =>
    have short : size Failure.busy.message ≤ 80 + 64 := by decide
    exact short.trans number

namespace Wire

/-! ## Messages -/

/-- A number takes at most nine bytes. -/
lemma length_varint (n : Nat) : (varint n).length ≤ 9 := by
  unfold varint
  split
  · simp
  split
  · simp
  split <;> simp

/-- A word takes no more than other numbers. -/
lemma length_word64 (n : UInt64) : (word64 n).length ≤ 9 := length_varint _

/-- A text takes its own bytes and those of their count. -/
lemma length_text (s : String) : (text s).length ≤ size s + 9 := by
  have count := length_varint (Text.Utf8.encode s).length
  rw [text, bytes, List.length_append]
  exact Nat.add_comm .. ▸ Nat.add_le_add_left count _

/-- A failure is told in little more than the text it names. -/
lemma length_ofFailure {bound : Nat} {why : Failure} (brief : why.Brief bound) :
    (Response.ofFailure why).encode.length ≤ bound + 171 := by
  have tag := length_varint 10
  have kind := length_varint why.kind.index
  have message := length_text why.message
  have short := brief.size_message
  rw [Response.ofFailure, Response.encode, failureKind, List.length_append, List.length_append]
  omega

/-- The length of the name in a notification. -/
def nameSize : Notification → Nat
  | .attrSet name | .attrDel name | .childAdded name | .childRemoved name => size name
  | .lockAcquired | .lockReleased => 0

/-- An event takes little more than the name in it. -/
lemma length_eventMessage (m : EventMessage) :
    m.encode.length ≤ nameSize m.notification + 27 := by
  have handle := length_word64 m.handle
  have body : (notification m.notification).length ≤ nameSize m.notification + 18 := by
    cases m.notification with
    | attrSet name | attrDel name | childAdded name | childRemoved name =>
      have tag : ∀ n, (varint n).length ≤ 9 := length_varint
      have named := length_text name
      rw [notification, List.length_append, nameSize]
      have := tag 0
      have := tag 1
      have := tag 2
      have := tag 3
      omega
    | lockAcquired | lockReleased => decide
  rw [EventMessage.encode, List.length_append]
  omega

/-! ## What is said of bytes that are no message -/

/-- The failure is found at a place up to `stop`, and few bytes are at fault. -/
def InvalidBy (stop : Nat) : Invalid → Prop
  | .malformed length index => length ≤ 3 ∧ index ≤ stop
  | .incomplete index => index ≤ stop

/-- Bytes cease to be a text at one of them. -/
lemma invalidBy_of_decodeFrom {i : Nat} {bytes : List UInt8} {why : Invalid}
    (failed : decodeFrom i bytes = .error why) : InvalidBy (i + bytes.length) why := by
  fun_induction decodeFrom i bytes
  all_goals simp_all [Functor.map, Except.map]
  all_goals grind [InvalidBy]

/-- What is said of bytes that are no text is short if they are few. -/
lemma size_invalid {stop : Nat} {why : Invalid} (small : stop < 2 ^ 64)
    (found : InvalidBy stop why) : size why.message ≤ 148 := by
  cases why with
  | malformed length index =>
    have digit : size length.repr ≤ 4 :=
      size_repr 1 (by decide) (lt_of_le_of_lt found.1 (by decide))
    have digits : size index.repr ≤ 80 := size_word (lt_of_le_of_lt found.2 small)
    exact size_append.trans_le (Nat.add_le_add (size_between digit) digits)
  | incomplete index =>
    exact (size_behind (size_word (lt_of_le_of_lt found small))).trans (by decide)

namespace Reader

variable {α β : Type} {r : Reader α} {f : α → Reader β} {bytes rest : List UInt8}

/-- What is taken is the front, and the rest is left. -/
lemma take_eq_ok {n : Nat} {e : Malformed} {front : List UInt8}
    (taken : (take n e).run bytes = .ok (front, rest)) :
    front = bytes.take n ∧ rest = bytes.drop n := by
  by_cases enough : n ≤ bytes.length
  · obtain ⟨rfl, rfl⟩ := Prod.mk.inj (Except.ok.inj ((if_pos enough).symm.trans taken))
    exact ⟨rfl, rfl⟩
  · exact nomatch (if_neg enough).symm.trans taken

/-- What the reader says of bytes that it does not accept is short. -/
class Concise (r : Reader α) : Prop where
  brief {bytes : List UInt8} {e : Malformed} :
    Counted bytes → r.run bytes = .error e → size e.message ≤ 192

/-- What is left of few bytes is few. -/
lemma counted_rest [SelfDelimiting r] {a : α} (counted : Counted bytes)
    (taken : r.run bytes = .ok (a, rest)) : Counted rest := by
  obtain ⟨front, rfl, -⟩ := SelfDelimiting.front taken
  rw [Counted, List.length_append] at counted
  exact lt_of_le_of_lt (Nat.le_add_left ..) counted

/-- A result that needs no bytes never fails. -/
instance (a : α) : Concise (pure a : Reader α) where
  brief := by rintro bytes e - ⟨⟩

/-- Two readers in a row fail as one of them does. -/
lemma Concise.bind [SelfDelimiting r] (first : Concise r) (next : ∀ a, Concise (f a)) :
    Concise (r >>= f) where
  brief := by
    intro bytes e counted failed
    rw [StateT.run_bind] at failed
    rcases bind_eq_error.mp failed with failed | ⟨⟨a, rest⟩, taken, failed⟩
    · exact first.brief counted failed
    · exact (next a).brief (counted_rest counted taken) failed

/-- The same for readers that are known to be concise. -/
instance [SelfDelimiting r] [Concise r] [∀ a, Concise (f a)] : Concise (r >>= f) :=
  .bind inferInstance inferInstance

/-- Changing the result changes no failure. -/
instance [SelfDelimiting r] [Concise r] (g : α → β) : Concise (g <$> r) := by
  rw [map_eq_pure_bind]
  infer_instance

/-- A failure with a short text. -/
lemma concise_fail {e : Malformed} (short : size e.message ≤ 192 := by decide +kernel) :
    Concise (fail e : Reader α) where
  brief := by
    rintro bytes _ - ⟨⟩
    exact short

/-- A choice between concise readers is concise. -/
instance (c : Prop) [Decidable c] {s : Reader α} [Concise r] [Concise s] :
    Concise (if c then r else s) := by
  split <;> assumption

/-- A missing byte is reported briefly. -/
instance : Concise byte where
  brief := by
    intro bytes e _ failed
    cases bytes with
    | nil =>
      cases failed
      decide
    | cons => cases failed

/-- Missing bytes are reported briefly. -/
lemma concise_take (n : Nat) {e : Malformed} (short : size e.message ≤ 192 := by decide +kernel) :
    Concise (take n e) where
  brief := by
    intro bytes e' _ failed
    by_cases enough : n ≤ bytes.length
    · exact nomatch (if_pos enough).symm.trans failed
    · obtain rfl := Except.error.inj ((if_neg enough).symm.trans failed)
      exact short

/-- Numbers of fixed width fail for want of bytes. -/
instance (width : Nat) : Concise (fixed width) := by
  have := concise_take width (e := .short)
  unfold fixed
  infer_instance

/-- A byte that is no truth value is reported by its value. -/
instance : Concise bool := by
  have badBool : ∀ b : UInt8, Concise (fail (.badBool b) : Reader Bool) := by
    intro b
    have digits : size b.toNat.repr ≤ 80 := size_word (b.toNat_lt.trans (by decide))
    exact concise_fail ((size_behind digits).trans (by decide))
  unfold bool
  refine .bind inferInstance fun b => ?_
  split <;> infer_instance

/-- A number fails for want of bytes or by its mark. -/
instance : Concise varint := by
  have tooWide : Concise (fail .tooWide : Reader Nat) := concise_fail
  have reserved : Concise (fail .reserved : Reader Nat) := concise_fail
  unfold varint
  infer_instance

/-- A word fails as a number does. -/
instance : Concise word64 := by
  unfold word64
  infer_instance

/-- A number of fixed width is below the bound of its width. -/
lemma lt_of_fixed {width n : Nat} (taken : (fixed width).run bytes = .ok (n, rest)) :
    n < 256 ^ width := by
  rw [fixed, map_eq_pure_bind, StateT.run_bind] at taken
  obtain ⟨⟨front, behind⟩, first, last⟩ := bind_eq_ok.mp taken
  obtain ⟨rfl, rfl⟩ := Prod.mk.inj (Except.ok.inj last)
  have short : front.length ≤ width := by
    rw [(take_eq_ok first).1]
    exact List.length_take_le width bytes
  exact lt_of_lt_of_le (ofLittleEndian_lt front) (Nat.pow_le_pow_right (by decide) short)

/-- A number that was read has at most 64 bits. -/
lemma lt_of_varint {n : Nat} (taken : varint.run bytes = .ok (n, rest)) : n < 2 ^ 64 := by
  rw [varint, StateT.run_bind] at taken
  obtain ⟨⟨lead, behind⟩, -, last⟩ := bind_eq_ok.mp taken
  dsimp only at last
  split at last
  · obtain ⟨rfl, rfl⟩ := Prod.mk.inj (Except.ok.inj last)
    exact lead.toNat_lt.trans (by decide)
  split at last
  · exact (lt_of_fixed last).trans (by decide)
  split at last
  · exact (lt_of_fixed last).trans (by decide)
  split at last
  · exact lt_of_lt_of_le (lt_of_fixed last) (by decide)
  split at last <;> cases last

/-- A number that is too large for a word is named, and it has at most 64 bits. -/
instance : Concise word32 where
  brief := by
    intro bytes e counted failed
    rw [word32, StateT.run_bind] at failed
    rcases bind_eq_error.mp failed with failed | ⟨⟨n, rest⟩, taken, failed⟩
    · exact Concise.brief counted failed
    · dsimp only at failed
      split at failed
      · cases failed
      · cases failed
        have digits : size n.repr ≤ 80 := size_word (lt_of_varint taken)
        exact (size_between digits).trans (by decide)

/-- A tag out of range is reported by its value. -/
lemma concise_tag (count : Nat) (few : count < 100) : Concise (tag count) := by
  have unknown : ∀ n : UInt32, Concise (fail (.unknownTag n.toNat count) : Reader Nat) := by
    intro n
    have digits : size n.toNat.repr ≤ 40 := size_repr 10 (by decide) (n.toNat_lt.trans (by decide))
    have counted : size count.repr ≤ 8 := size_repr 2 (by decide) few
    refine concise_fail (size_append.trans_le ?_)
    exact (Nat.add_le_add (size_between digits) counted).trans (by decide)
  unfold tag
  infer_instance

/-- Bytes that are no text are reported by the place where they break off. -/
instance (n : Nat) : Concise (textOf n) where
  brief := by
    intro bytes e counted failed
    rw [textOf, StateT.run_bind] at failed
    rcases bind_eq_error.mp failed with failed | ⟨⟨front, rest⟩, taken, failed⟩
    · exact (concise_take n (e := .shortText)).brief counted failed
    · dsimp only at failed
      split at failed
      · cases failed
      · rename_i why invalid
        cases failed
        obtain ⟨rfl, -⟩ := take_eq_ok taken
        have found := invalidBy_of_decodeFrom (map_eq_error.mp invalid)
        have small : 0 + (bytes.take n).length < 2 ^ 64 := by
          rw [Nat.zero_add]
          exact lt_of_le_of_lt (List.length_take_le' n bytes) counted
        have words : size "string is not valid utf8: " ≤ 28 := by decide
        exact size_append.trans_le
          ((Nat.add_le_add words (size_invalid small found)).trans (by decide))

/-- A text fails by its count or its bytes. -/
instance : Concise text := by
  unfold text
  infer_instance

/-- Bytes fail by their count or for want of them. -/
instance : Concise Reader.bytes := by
  have := fun n => concise_take n (e := .short)
  unfold Reader.bytes
  infer_instance

/-- A lock mode fails by its tag. -/
instance : Concise lockMode := by
  have := concise_tag 3 (by decide)
  unfold lockMode
  refine .bind inferInstance fun n => ?_
  split <;> infer_instance

/-- A request fails by its tag or by one of its fields. -/
instance : Concise request := by
  have := concise_tag 18 (by decide)
  unfold request
  refine .bind inferInstance fun n => ?_
  split <;> infer_instance

/-- A payload that is not read to its end is refused briefly too. -/
lemma brief_of_complete [Concise r] {e : Malformed} (counted : Counted bytes)
    (failed : r.complete bytes = .error e) : size e.message ≤ 192 := by
  unfold complete at failed
  split at failed
  case h_1 e' run =>
    obtain rfl := Except.error.inj failed
    exact Concise.brief counted run
  case h_2 => cases failed
  case h_3 =>
    obtain rfl := Except.error.inj failed
    decide

end Reader

namespace Frame

variable {f : Frame} {r : Request} {why : Failure}

/-- Why a frame holds no request is said briefly. -/
lemma brief_of_toRequest (counted : Reader.Counted f.payload) (failed : f.toRequest = .error why) :
    ∃ detail, why = .protocol detail ∧ size detail ≤ 240 := by
  unfold toRequest at failed
  split at failed
  · obtain rfl := Except.error.inj failed
    refine ⟨_, rfl, ?_⟩
    cases f.kind <;> decide
  split at failed
  · obtain rfl := Except.error.inj failed
    exact ⟨_, rfl, (size_behind (size_number 4 _)).trans (by decide)⟩
  · rename_i opcode _
    rcases bind_eq_error.mp failed with failed | ⟨found, -, failed⟩
    · unfold read at failed
      split at failed
      · cases failed
      · rename_i e malformed
        obtain rfl := Except.error.inj failed
        have words : size "malformed payload: " ≤ 19 := by decide
        have message := Reader.brief_of_complete counted malformed
        exact ⟨_, rfl, size_append.trans_le ((Nat.add_le_add words message).trans (by decide))⟩
    · split at failed
      · obtain rfl := Except.error.inj failed
        refine ⟨_, rfl, ?_⟩
        have short : ∀ o : Opcode, size o.name ≤ 16 := by
          rintro ⟨⟩ <;> decide
        exact size_append.trans_le
          ((Nat.add_le_add (size_between (short opcode)) (short _)).trans (by decide))
      · cases failed

end Frame

/-! ## The texts of a request -/

/-- The length of the path or the name in a request. -/
def Request.textSize : Request → Nat
  | .open _ path _ _ | .mkdir _ path | .delete _ path | .exists _ path => size path
  | .attrSet _ _ name _ | .attrGet _ _ name | .attrDel _ _ name | .attrExists _ _ name => size name
  | _ => 0

namespace Reader

variable {α β : Type} {r : Reader α} {f : α → Reader β} {given : Nat} {part : α → Nat}

/-- A part of the value that is read, as far as it exceeds what is given, was in the bytes. -/
def Draws (r : Reader α) (given : Nat) (part : α → Nat) : Prop :=
  ∀ bytes rest a, r.run bytes = .ok (a, rest) → part a + rest.length ≤ given + bytes.length

/-- A result whose texts have been accounted for. -/
lemma Draws.pure {a : α} (enough : part a ≤ given) : Draws (pure a) given part := by
  rintro bytes rest _ ⟨⟩
  exact Nat.add_le_add_right enough _

/-- The texts of the first result are given to the second reader. -/
lemma Draws.bind {part : β → Nat} {first : α → Nat} (reads : Draws r given first)
    (next : ∀ a, Draws (f a) (first a) part) : Draws (r >>= f) given part := by
  intro bytes rest b taken
  rw [StateT.run_bind] at taken
  obtain ⟨⟨a, behind⟩, taken, last⟩ := bind_eq_ok.mp taken
  exact (next a _ _ _ last).trans (reads _ _ _ taken)

/-- Nothing of what was given before is lost. -/
lemma draws_any [SelfDelimiting r] : Draws r given fun _ => given := by
  intro bytes rest a taken
  obtain ⟨front, rfl, -⟩ := SelfDelimiting.front taken
  rw [List.length_append]
  exact Nat.add_le_add_left (Nat.le_add_left ..) given

/-- A text of given length is drawn from the bytes it takes. -/
lemma draws_textOf (n : Nat) : Draws (textOf n) given fun s => given + size s := by
  intro bytes rest s taken
  rw [textOf, StateT.run_bind] at taken
  obtain ⟨⟨front, behind⟩, first, last⟩ := bind_eq_ok.mp taken
  obtain ⟨rfl, rfl⟩ := take_eq_ok first
  dsimp only at last
  split at last
  case h_1 s' decoded =>
    obtain ⟨rfl, rfl⟩ := Prod.mk.inj (Except.ok.inj last)
    have whole : size s' + (bytes.drop n).length = bytes.length := by
      rw [size, ← decode_eq_ok_iff.mp decoded, ← List.length_append, List.take_append_drop]
    rw [Nat.add_assoc, whole]
  case h_2 => cases last

/-- A text is drawn from more bytes than it has. -/
lemma draws_text : Draws text given fun s => given + size s :=
  draws_any.bind fun n => draws_textOf n

/-- The texts of a request are drawn from its bytes. -/
lemma draws_request : Draws request 0 Request.textSize := by
  have text : ∀ s, size s ≤ 0 + size s := fun s => (Nat.zero_add _).ge
  unfold request
  refine draws_any.bind fun tag => ?_
  split
  case h_1 | h_18 => exact .pure (Nat.zero_le _)
  case h_2 | h_3 => exact draws_any.bind fun _ => .pure (Nat.zero_le _)
  case h_5 | h_9 | h_14 | h_17 =>
    exact draws_any.bind fun _ => draws_any.bind fun _ => .pure (Nat.zero_le _)
  case h_15 | h_16 =>
    exact draws_any.bind fun _ => draws_any.bind fun _ => draws_any.bind fun _ =>
      .pure (Nat.zero_le _)
  case h_6 | h_7 | h_8 => exact draws_any.bind fun _ => draws_text.bind fun _ => .pure (text _)
  case h_11 | h_12 | h_13 =>
    exact draws_any.bind fun _ => draws_any.bind fun _ => draws_text.bind fun _ => .pure (text _)
  case h_10 =>
    exact draws_any.bind fun _ => draws_any.bind fun _ => draws_text.bind fun _ =>
      draws_any.bind fun _ => .pure (text _)
  case h_4 =>
    exact draws_any.bind fun _ => draws_text.bind fun _ => draws_any.bind fun _ =>
      draws_any.bind fun _ => .pure (text _)

end Reader

/-- The texts of a request are part of the payload that it was read from. -/
lemma Frame.textSize_le {f : Frame} {r : Request} (read : f.toRequest = .ok r) :
    r.textSize ≤ f.payload.length := by
  have payload := read_eq_ok_iff.mp (toRequest_eq_ok_iff.mp read).2.1
  have drawn := Reader.draws_request _ _ _ (Reader.complete_eq_ok_iff.mp payload)
  simpa using drawn

end Wire

end Coordination
