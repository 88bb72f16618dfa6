import Coordination.Proofs.Failure
import Coordination.Proofs.Tree.Record

/-!
# What is read as a record

The bytes of a record list its attributes, and reading does not ask for their order or for different
names. `Listing` is what the bytes say before the attributes become a map. A reader takes a value
off the front of some bytes exactly if they begin with what the value is written as
(`run_take_eq_ok` and its like), so the bytes that are read as a record are those that begin with a
listing of it (`decode_eq_ok_iff`). That no record is read from a part of another follows, and that
what was read is kept when it is written again.
-/

namespace Coordination

/-! ## What readers took -/

namespace Wire.Reader

variable {α β : Type} {r : Reader α} {bytes rest b : List UInt8} {n width : Nat}

/-- A sequence of readers accepts what its parts accept in a row. -/
lemma run_bind_eq_ok {f : α → Reader β} {b : β} : (r >>= f).run bytes = .ok (b, rest) ↔
    ∃ a behind, r.run bytes = .ok (a, behind) ∧ (f a).run behind = .ok (b, rest) := by
  rw [StateT.run_bind, bind_eq_ok, Prod.exists]

/-- Bytes that are taken stand in front of the rest. -/
lemma run_take_eq_ok {e : Malformed} :
    (take n e).run bytes = .ok (b, rest) ↔ bytes = b ++ rest ∧ b.length = n := by
  constructor
  · intro taken
    have enough : n ≤ bytes.length := by
      by_contra short
      exact nomatch (if_neg short).symm.trans taken
    obtain ⟨rfl, rfl⟩ : bytes.take n = b ∧ bytes.drop n = rest := by
      simpa using (if_pos enough).symm.trans taken
    exact ⟨(List.take_append_drop ..).symm, List.length_take_of_le enough⟩
  · rintro ⟨rfl, rfl⟩
    exact run_take b rest e

/-- A number of fixed width is read from its little-endian bytes. -/
lemma run_fixed_eq_ok : (fixed width).run bytes = .ok (n, rest) ↔
    bytes = littleEndian width n ++ rest ∧ n < 256 ^ width := by
  constructor
  · intro taken
    rw [fixed, map_eq_pure_bind, run_bind_eq_ok] at taken
    obtain ⟨b, behind, taken, ⟨⟩⟩ := taken
    obtain ⟨rfl, rfl⟩ := run_take_eq_ok.mp taken
    exact ⟨by rw [littleEndian_ofLittleEndian], ofLittleEndian_lt b⟩
  · rintro ⟨rfl, small⟩
    exact run_fixed small rest

/-- A truth value is read from the byte it is written as. -/
lemma run_bool_eq_ok {b : Bool} :
    bool.run bytes = .ok (b, rest) ↔ bytes = Wire.bool b ++ rest := by
  constructor
  · intro taken
    rw [bool, run_bind_eq_ok] at taken
    obtain ⟨lead, behind, first, taken⟩ := taken
    cases bytes with
    | nil => cases first
    | cons byte bytes =>
      cases first
      split at taken <;> cases taken <;> rfl
  · rintro rfl
    exact run_bool b rest

/-- A text is read from its encoding. -/
lemma run_textOf_eq_ok {s : String} : (textOf n).run bytes = .ok (s, rest) ↔
    bytes = Text.Utf8.encode s ++ rest ∧ (Text.Utf8.encode s).length = n := by
  constructor
  · intro taken
    rw [textOf, run_bind_eq_ok] at taken
    obtain ⟨b, behind, first, taken⟩ := taken
    obtain ⟨rfl, rfl⟩ := run_take_eq_ok.mp first
    split at taken
    case h_1 s' read =>
      cases taken
      rw [Text.Utf8.decode_eq_ok_iff] at read
      exact ⟨by rw [read], by rw [read]⟩
    case h_2 => cases taken
  · rintro ⟨rfl, rfl⟩
    exact run_textOf s rest

/-- Where a reader takes exactly what was written for some of its values, it takes in a row what was
written in a row. -/
lemma run_many_eq_ok {write : α → List UInt8} {Valid : α → Prop} {l : List α}
    (each : ∀ {bytes a rest}, r.run bytes = .ok (a, rest) ↔ bytes = write a ++ rest ∧ Valid a) :
    (many r n).run bytes = .ok (l, rest) ↔
      bytes = l.flatMap write ++ rest ∧ l.length = n ∧ ∀ a ∈ l, Valid a := by
  constructor
  · intro taken
    induction n generalizing bytes l with
    | zero =>
      cases taken
      exact ⟨rfl, rfl, fun _ mem => nomatch mem⟩
    | succ n ih =>
      rw [many, run_bind_eq_ok] at taken
      obtain ⟨a, behind, first, taken⟩ := taken
      obtain ⟨l, behind', others, ⟨⟩⟩ := run_bind_eq_ok.mp taken
      obtain ⟨rfl, valid⟩ := each.mp first
      obtain ⟨rfl, rfl, all⟩ := ih others
      exact ⟨by rw [List.flatMap_cons, List.append_assoc], rfl,
        List.forall_mem_cons.mpr ⟨valid, all⟩⟩
  · rintro ⟨rfl, rfl, all⟩
    exact run_many r write l (fun a mem rest => each.mpr ⟨rfl, all a mem⟩) rest

end Wire.Reader

namespace Record

variable {r r' : Record}

/-! ## Listings -/

/-- The bytes of an attribute. -/
def entry (b : String × Bytes) : Bytes := field (Text.Utf8.encode b.1) ++ field b.2

/-- What bytes say about a node: its attributes come in any order, and names may be repeated. -/
structure Listing where
  isDir : Bool
  attrs : List (String × Bytes)

namespace Listing

/-- The bytes of a listing: the kind of the node, the count of the attributes, and each of them. -/
def bytes (l : Listing) : Bytes :=
  Wire.bool l.isDir ++ Wire.littleEndian 8 l.attrs.length ++ l.attrs.flatMap entry

/-- Every length in the listing fits the eight bytes it is written in. -/
structure Fits (l : Listing) : Prop where
  count : l.attrs.length < 256 ^ 8
  name : ∀ b ∈ l.attrs, (Text.Utf8.encode b.1).length < 256 ^ 8
  value : ∀ b ∈ l.attrs, b.2.length < 256 ^ 8

/-- The listing is one of the record: each name has the value it is listed with last. -/
structure Lists (l : Listing) (r : Record) : Prop where
  isDir : r.isDir = l.isDir
  last : ∀ name, r.attrs.get? name = l.attrs.reverse.lookup name

/-- A listing is one of the record whose attributes are made of it. -/
lemma lists_iff {l : Listing} : l.Lists r ↔ r = ⟨l.isDir, .ofList l.attrs⟩ := by
  constructor
  · rintro ⟨isDir, last⟩
    have attrs : r.attrs = .ofList l.attrs := FinMap.ext fun name => by
      rw [last, FinMap.get?_ofList]
    cases r
    simp_all
  · rintro rfl
    exact ⟨rfl, fun _ => FinMap.get?_ofList _⟩

/-- A record fits if one of its listings does. -/
lemma Fits.record {l : Listing} (fits : l.Fits) (lists : l.Lists r) : r.Fits := by
  obtain rfl := lists_iff.mp lists
  exact ⟨(FinMap.size_ofList_le _).trans_lt fits.count,
    fun b mem => fits.name b (FinMap.mem_of_mem_ofList mem),
    fun b mem => fits.value b (FinMap.mem_of_mem_ofList mem)⟩

end Listing

/-- The listing that a record is written as. -/
def listing (r : Record) : Listing := ⟨r.isDir, r.attrs.toList⟩

/-- A record is written as its own listing. -/
lemma encode_eq (r : Record) : r.encode = r.listing.bytes := rfl

/-- The listing of a record is one of it. -/
lemma lists_listing (r : Record) : r.listing.Lists r :=
  Listing.lists_iff.mpr (by rw [listing, FinMap.ofList_toList])

/-- A record that fits has a listing that fits. -/
lemma Fits.listing (fits : r.Fits) : r.listing.Fits := ⟨fits.size, fits.name, fits.value⟩

/-- Attributes are written in ascending order of the bytes of their names. -/
lemma ascending_listing (r : Record) :
    (r.listing.attrs.map fun b => Text.Utf8.encode b.1).Pairwise (· < ·) :=
  List.pairwise_map.mpr (r.attrs.ascending.imp Text.Utf8.encode_lt_encode)

/-! ## Reading -/

variable {bytes rest part : Bytes}

/-- An attribute is read from the bytes it is written as. -/
lemma run_readAttr_eq_ok {b : String × Bytes} : readAttr.run bytes = .ok (b, rest) ↔
    bytes = entry b ++ rest ∧
      ((Text.Utf8.encode b.1).length < 256 ^ 8 ∧ b.2.length < 256 ^ 8) := by
  constructor
  · intro taken
    rw [readAttr, Wire.Reader.run_bind_eq_ok] at taken
    obtain ⟨length, _, first, taken⟩ := taken
    obtain ⟨name, _, second, taken⟩ := Wire.Reader.run_bind_eq_ok.mp taken
    obtain ⟨length', _, third, taken⟩ := Wire.Reader.run_bind_eq_ok.mp taken
    obtain ⟨value, _, fourth, ⟨⟩⟩ := Wire.Reader.run_bind_eq_ok.mp taken
    obtain ⟨rfl, small⟩ := Wire.Reader.run_fixed_eq_ok.mp first
    obtain ⟨rfl, rfl⟩ := Wire.Reader.run_textOf_eq_ok.mp second
    obtain ⟨rfl, small'⟩ := Wire.Reader.run_fixed_eq_ok.mp third
    obtain ⟨rfl, rfl⟩ := Wire.Reader.run_take_eq_ok.mp fourth
    exact ⟨by simp only [entry, field, List.append_assoc], small, small'⟩
  · rintro ⟨rfl, name, value⟩
    exact run_readAttr name value rest

/-- A record is taken off bytes that begin with one of its listings, and off no others. -/
lemma run_read_eq_ok : read.run bytes = .ok (r, rest) ↔
    ∃ l : Listing, bytes = l.bytes ++ rest ∧ l.Fits ∧ l.Lists r := by
  constructor
  · intro taken
    rw [read, Wire.Reader.run_bind_eq_ok] at taken
    obtain ⟨isDir, _, first, taken⟩ := taken
    obtain ⟨count, _, second, taken⟩ := Wire.Reader.run_bind_eq_ok.mp taken
    obtain ⟨attrs, _, third, ⟨⟩⟩ := Wire.Reader.run_bind_eq_ok.mp taken
    obtain rfl := Wire.Reader.run_bool_eq_ok.mp first
    obtain ⟨rfl, small⟩ := Wire.Reader.run_fixed_eq_ok.mp second
    obtain ⟨rfl, rfl, each⟩ := (Wire.Reader.run_many_eq_ok run_readAttr_eq_ok).mp third
    refine ⟨⟨isDir, attrs⟩, by simp only [Listing.bytes, List.append_assoc], ⟨small, ?_, ?_⟩,
      Listing.lists_iff.mpr rfl⟩
    · exact fun b mem => (each b mem).1
    · exact fun b mem => (each b mem).2
  · rintro ⟨l, rfl, fits, lists⟩
    obtain rfl := Listing.lists_iff.mp lists
    have attrs : (Wire.Reader.many readAttr l.attrs.length).run (l.attrs.flatMap entry ++ rest) =
        .ok (l.attrs, rest) := (Wire.Reader.run_many_eq_ok run_readAttr_eq_ok).mpr
      ⟨rfl, rfl, fun b mem => ⟨fits.name b mem, fits.value b mem⟩⟩
    rw [read, Listing.bytes, List.append_assoc, List.append_assoc,
      Wire.Reader.run_bind_of_ok (Wire.Reader.run_bool ..),
      Wire.Reader.run_bind_of_ok (Wire.Reader.run_fixed fits.count _),
      Wire.Reader.run_bind_of_ok attrs]
    rfl

/-- A record is decoded from the front of the bytes. -/
lemma decode_eq_ok_iff_run : decode bytes = .ok r ↔ ∃ rest, read.run bytes = .ok (r, rest) := by
  unfold decode Wire.Reader.leading
  cases read.run bytes with
  | error e => simp
  | ok taken => simp [Prod.ext_iff]

/-- Bytes are read as a record if and only if they begin with one of its listings. -/
lemma decode_eq_ok_iff : decode bytes = .ok r ↔
    ∃ (l : Listing) (rest : Bytes), bytes = l.bytes ++ rest ∧ l.Fits ∧ l.Lists r := by
  rw [decode_eq_ok_iff_run, exists_comm]
  exact exists_congr fun rest => run_read_eq_ok

/-- What follows a record does not matter. -/
lemma decode_encode_append (fits : r.Fits) (rest : Bytes) : decode (r.encode ++ rest) = .ok r :=
  decode_eq_ok_iff.mpr ⟨r.listing, rest, rfl, fits.listing, r.lists_listing⟩

/-- Reading does not look behind the record: it would take the same off longer bytes. -/
lemma run_read_append {more : Bytes} (taken : read.run bytes = .ok (r, rest)) :
    read.run (bytes ++ more) = .ok (r, rest ++ more) := by
  obtain ⟨l, rfl, fits, lists⟩ := run_read_eq_ok.mp taken
  exact run_read_eq_ok.mpr ⟨l, List.append_assoc .., fits, lists⟩

/-- A record that was cut off is refused. -/
lemma decode_part (fits : r.Fits) (part_of : part <+: r.encode) (proper : part ≠ r.encode) :
    ∃ why, decode part = .error (.store why) := by
  cases taken : read.run part with
  | error e => exact ⟨e.message, by rw [decode, Wire.Reader.leading, taken]⟩
  | ok found =>
    -- The same would be taken off the whole record, which leaves nothing behind.
    exfalso
    obtain ⟨r', rest⟩ := found
    obtain ⟨more, whole⟩ := part_of
    have longer : read.run (part ++ more) = .ok (r', rest ++ more) := run_read_append taken
    have exact := run_read fits []
    rw [List.append_nil, ← whole, longer] at exact
    obtain ⟨-, rfl⟩ := List.append_eq_nil_iff.mp (Prod.ext_iff.mp (Except.ok.inj exact)).2
    exact proper (by rw [← whole, List.append_nil])

/-- No record is written as the beginning of another. -/
lemma eq_of_encode_prefix (fits : r.Fits) (fits' : r'.Fits) (front : r.encode <+: r'.encode) :
    r = r' := by
  obtain ⟨rest, whole⟩ := front
  have read := decode_encode_append fits rest
  rw [whole, decode_encode fits'] at read
  exact (Except.ok.inj read).symm

/-- What was read fits the store, and is kept when it is written again. -/
lemma rewritten (accepted : decode bytes = .ok r) : r.Fits ∧ decode r.encode = .ok r := by
  obtain ⟨l, rest, -, fits, lists⟩ := decode_eq_ok_iff.mp accepted
  exact ⟨fits.record lists, decode_encode (fits.record lists)⟩

/-- Records survive the store. A record is written with its attributes in ascending order of the
bytes of their names, and is read back whatever follows it; cut off anywhere it is refused by a
failure of the store. So two records have different bytes, of which none begins with the others. The
bytes that are read as a record are those that begin with any listing of it, where the last value of
a name counts, and what was read from them is read again from the bytes it is written as. -/
theorem survives_store :
    (∀ r : Record, r.Fits →
      (r.encode = r.listing.bytes ∧
        (r.listing.attrs.map fun b => Text.Utf8.encode b.1).Pairwise (· < ·)) ∧
      (∀ rest, decode (r.encode ++ rest) = .ok r) ∧
      (∀ part, part <+: r.encode → part ≠ r.encode → ∃ why, decode part = .error (.store why)) ∧
      ∀ r' : Record, r'.Fits →
        (r.encode = r'.encode → r = r') ∧ (r.encode <+: r'.encode → r.encode = r'.encode)) ∧
    (∀ bytes r, decode bytes = .ok r ↔
      ∃ (l : Listing) (rest : Bytes), bytes = l.bytes ++ rest ∧ l.Fits ∧ l.Lists r) ∧
    ∀ bytes r, decode bytes = .ok r → r.Fits ∧ decode r.encode = .ok r := by
  refine ⟨fun r fits => ⟨⟨r.encode_eq, r.ascending_listing⟩, decode_encode_append fits, ?_, ?_⟩,
    fun bytes r => decode_eq_ok_iff, fun bytes r => rewritten⟩
  · exact fun part front proper => decode_part fits front proper
  · intro r' fits'
    have front := eq_of_encode_prefix fits fits'
    refine ⟨fun same => front (same ▸ List.prefix_refl _), fun begins => ?_⟩
    rw [front begins]

/-- A directory with its attributes out of order, one of them twice. -/
def scrambled : Listing := ⟨true, [("tone", [7]), ("hue", [8, 8]), ("tone", [9])]⟩

/-- The record it lists. -/
def sorted : Record := ⟨true, .ofList [("hue", [8, 8]), ("tone", [9])]⟩

/-- Attributes out of order are read all the same, and so is the record with bytes behind it; bytes
that break off are refused. -/
theorem survives_store_sorted : sorted.Fits ∧ scrambled.bytes ≠ sorted.encode ∧
    decode scrambled.bytes = .ok sorted ∧ decode (sorted.encode ++ [1, 2]) = .ok sorted ∧
    ∃ why, decode (sorted.encode.take 20) = .error (.store why) := by
  obtain ⟨kept, accepted, rewritten⟩ := survives_store
  have lists : scrambled.Lists sorted := Listing.lists_iff.mpr (by decide +kernel)
  have fits : scrambled.Fits := by
    constructor <;> decide +kernel
  have found : decode scrambled.bytes = .ok sorted :=
    (accepted _ _).mpr ⟨scrambled, [], (List.append_nil _).symm, fits, lists⟩
  obtain ⟨-, whole, part, -⟩ := kept sorted (rewritten _ _ found).1
  refine ⟨(rewritten _ _ found).1, by decide +kernel, found, whole _, part _ ?_ (by decide +kernel)⟩
  exact List.take_prefix ..

end Record

end Coordination
