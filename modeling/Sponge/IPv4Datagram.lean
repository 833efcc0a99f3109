import Sponge.InternetChecksum

/-!
# Internet datagrams

Embedding of `libsponge/tcp_helpers/ipv4_header.{hh,cc}` and
`libsponge/tcp_helpers/ipv4_datagram.{hh,cc}`.

`IPv4Header::parse` reports a malformed header in its result.  The parser's own error is
set only if bytes are missing while the fields are read, which the size check at the top
excludes.  `IPv4Datagram::parse` drops the result and returns the parser's error, so of
the header's checks only their effect on the payload length is left.

Main results:

* `parse_noError_iff_valid` — for which byte strings the datagrams accepted are the valid
  ones.
* `parse_serialize` — a datagram that is serialised and parsed is the datagram with its
  checksum filled in; `datagram_round_trip` says it field by field.

### What is left of the checks

The results of `IPv4Header::parse` are thrown away, but where it returns decides how many
bytes the parser has skipped.  A header that passes the size checks is skipped with its
options; any other one only with its first twenty bytes.  What follows is the payload, and
its length is compared with the one the header gives.  This comparison is all that rejects a
malformed header, and `Misjudged` says when it does not.

### Two notions of a good datagram

`Serializable` is what `serialize` does not reject.  `Sendable` is stronger and is what
survives the way through bytes: a header length beyond 15 words or an offset of more than 13
bits can be written, but is cut to its bits in the header, and a length that agrees with the
payload only modulo 2¹⁶ is accepted as well.

Options are not kept.  `parse` skips them and `serialize` writes zeros, so a header with
options is read back without what they said.
-/

namespace Sponge

/-- `IPv4Header`, with the source's defaults. -/
structure IPv4Header where
  ver : UInt8 := 4
  /-- `LENGTH / 4`, for a header without options. -/
  hlen : UInt8 := 5
  tos : UInt8 := 0
  len : UInt16 := 0
  id : UInt16 := 0
  df : Bool := true
  mf : Bool := false
  offset : UInt16 := 0
  /-- `DEFAULT_TTL`. -/
  ttl : UInt8 := 128
  /-- `PROTO_TCP`. -/
  proto : UInt8 := 6
  cksum : UInt16 := 0
  src : UInt32 := 0
  dst : UInt32 := 0
  deriving Repr, DecidableEq

namespace IPv4Header

/-- `LENGTH`. -/
def length : ℕ := 20

/-- `PROTO_TCP`. -/
def protoTCP : UInt8 := 6

/-- The fields, in the order in which `parse` reads them. -/
def parseFields (p : NetParser) : IPv4Header × NetParser :=
  let (firstByte, p) := p.u8
  let (tos, p) := p.u8
  let (len, p) := p.u16
  let (id, p) := p.u16
  let (foVal, p) := p.u16
  let (ttl, p) := p.u8
  let (proto, p) := p.u8
  let (cksum, p) := p.u16
  let (src, p) := p.u32
  let (dst, p) := p.u32
  ({ ver := firstByte >>> 4, hlen := firstByte &&& 0x0f, tos := tos, len := len, id := id,
     df := foVal &&& 0x4000 != 0, mf := foVal &&& 0x2000 != 0, offset := foVal &&& 0x1fff,
     ttl := ttl, proto := proto, cksum := cksum, src := src, dst := dst }, p)

/-- `parse`: the result, the header and the parser afterwards. -/
def parse (h : IPv4Header) (p : NetParser) : ParseResult × IPv4Header × NetParser :=
  let original := p.buffer
  let dataSize := p.buffer.length
  if dataSize < length then (.packetTooShort, h, p)
  else
    let (h, p) := parseFields p
    if dataSize < 4 * h.hlen.toNat then (.packetTooShort, h, p)
    else if h.ver ≠ 4 then (.wrongIPVersion, h, p)
    else if h.hlen < 5 then (.headerTooShort, h, p)
    else if dataSize ≠ h.len.toNat then (.truncatedPacket, h, p)
    else
      let p := p.removePrefix (h.hlen.toNat * 4 - length)
      if p.error ≠ .noError then (p.error, h, p)
      else if (InternetChecksum.add {} (original.take (4 * h.hlen.toNat))).value ≠ 0 then
        (.badChecksum, h, p)
      else (.noError, h, p)

/-- The first byte of the header. -/
def firstByte (h : IPv4Header) : UInt8 := (h.ver <<< 4) ||| (h.hlen &&& 0xf)

/-- Flags and fragment offset. -/
def foVal (h : IPv4Header) : UInt16 :=
  (if h.df then 0x4000 else 0) ||| (if h.mf then 0x2000 else 0) ||| (h.offset &&& 0x1fff)

/-- The fields, in the order in which `serialize` writes them. -/
def unparseFields (h : IPv4Header) : List UInt8 :=
  NetUnparser.u8 h.firstByte ++ NetUnparser.u8 h.tos ++ NetUnparser.u16 h.len
    ++ NetUnparser.u16 h.id ++ NetUnparser.u16 h.foVal ++ NetUnparser.u8 h.ttl
    ++ NetUnparser.u8 h.proto ++ NetUnparser.u16 h.cksum ++ NetUnparser.u32 h.src
    ++ NetUnparser.u32 h.dst

/-- `serialize`, filled up with zeros where the options would be. -/
def serialize (h : IPv4Header) : Except WireFault (List UInt8) :=
  if h.ver ≠ 4 then .error .wrongIPVersion
  else if 4 * h.hlen.toNat < length then .error .ipHeaderTooShort
  else .ok (NetUnparser.resize h.unparseFields (4 * h.hlen.toNat))

/-- `payload_length`, in 16-bit arithmetic. -/
def payloadLength (h : IPv4Header) : UInt16 := h.len - 4 * h.hlen.toUInt16

/-- `pseudo_cksum`, in 32-bit arithmetic. -/
def pseudoCksum (h : IPv4Header) : ℕ :=
  ((h.src.toNat >>> 16) + (h.src.toNat &&& 0xffff)
    + ((h.dst.toNat >>> 16) + (h.dst.toNat &&& 0xffff))
    + h.proto.toNat + h.payloadLength.toNat) % 2 ^ 32

end IPv4Header

/-- `IPv4Datagram`. -/
structure IPv4Datagram where
  header : IPv4Header := {}
  payload : BufferList := []
  deriving Repr, DecidableEq

namespace IPv4Datagram

/-- `parse`: the result and the datagram afterwards.  The header's result is dropped. -/
def parse (d : IPv4Datagram) (buffer : List UInt8) : ParseResult × IPv4Datagram :=
  let (_, header, p) := d.header.parse ⟨buffer, .noError⟩
  let payload : BufferList := [p.buffer]
  if payload.size ≠ header.payloadLength.toNat then (.packetTooShort, ⟨header, payload⟩)
  else (p.error, ⟨header, payload⟩)

/-- `serialize`: the header with its checksum, before the buffers of the payload. -/
def serialize (d : IPv4Datagram) : Except WireFault BufferList :=
  if d.payload.size ≠ d.header.payloadLength.toNat then .error .payloadSize
  else do
    let headerOut := { d.header with cksum := 0 }
    let headerZeroChecksum ← headerOut.serialize
    let headerOut := { headerOut with cksum := (InternetChecksum.add {} headerZeroChecksum).value }
    let bytes ← headerOut.serialize
    .ok (bytes :: d.payload)

/-! ## What a datagram is -/

/-- The version nibble. -/
def version (b : List UInt8) : ℕ := fieldAt b 0 1 / 16

/-- IHL, the header's length in words of four bytes. -/
def ihl (b : List UInt8) : ℕ := fieldAt b 0 1 % 16

/-- The total-length field. -/
def totalLength (b : List UInt8) : ℕ := fieldAt b 2 2

/-- The header's fields are consistent with each other and with the size. -/
structure WellFormed (b : List UInt8) : Prop where
  size : IPv4Header.length ≤ b.length
  version : version b = 4
  ihl_ge : 5 ≤ ihl b
  ihl_le : 4 * ihl b ≤ b.length
  total : totalLength b = b.length

/-- The Internet checksum over the header is valid. -/
def HeaderSound (b : List UInt8) : Prop := InternetChecksum.Sound 0 (b.take (4 * ihl b))

/-- A byte string that is an Internet datagram. -/
def Valid (b : List UInt8) : Prop := WellFormed b ∧ HeaderSound b

instance (b : List UInt8) : Decidable (WellFormed b) :=
  decidable_of_iff (IPv4Header.length ≤ b.length ∧ version b = 4 ∧ 5 ≤ ihl b
      ∧ 4 * ihl b ≤ b.length ∧ totalLength b = b.length)
    ⟨fun ⟨size, version, ge, le, total⟩ => ⟨size, version, ge, le, total⟩,
      fun h => ⟨h.size, h.version, h.ihl_ge, h.ihl_le, h.total⟩⟩

instance (b : List UInt8) : Decidable (HeaderSound b) :=
  inferInstanceAs (Decidable (InternetChecksum.Sound _ _))

instance (b : List UInt8) : Decidable (Valid b) := inferInstanceAs (Decidable (_ ∧ _))

/-- **The byte strings that are misjudged**: a well-formed header whose checksum is bad, and
a malformed one whose fields happen to give the number of bytes after the first twenty as
the payload's length. -/
def Misjudged (b : List UInt8) : Prop :=
  IPv4Header.length ≤ b.length ∧
    if WellFormed b then ¬HeaderSound b
    else b.length - IPv4Header.length = (totalLength b + 2 ^ 16 - 4 * ihl b) % 2 ^ 16

/-! ## The header's fields -/

/-- The two halves of a byte. -/
theorem toNat_nibbles (val : UInt8) :
    (val >>> 4).toNat = val.toNat / 16 ∧ (val &&& 0x0f).toNat = val.toNat % 16 := by
  constructor
  · rw [UInt8.toNat_shiftRight]
    exact Nat.shiftRight_eq_div_pow _ 4
  · rw [UInt8.toNat_and]
    exact Nat.and_two_pow_sub_one_eq_mod _ 4

/-- The fields that are read take twenty bytes; of their values only three matter to
`parse`. -/
theorem parseFields_spec (b : List UInt8) :
    ∃ h p, IPv4Header.parseFields ⟨b, .noError⟩ = (h, p) ∧ Consumed b IPv4Header.length p ∧
      (IPv4Header.length ≤ b.length →
        h.ver.toNat = version b ∧ h.hlen.toNat = ihl b ∧ h.len.toNat = totalLength b) := by
  obtain ⟨firstByte, p1, h1, c1, v1⟩ := (Consumed.start b).u8
  obtain ⟨tos, p2, h2, c2, -⟩ := c1.u8
  obtain ⟨len, p3, h3, c3, v3⟩ := c2.u16
  obtain ⟨id, p4, h4, c4, -⟩ := c3.u16
  obtain ⟨foVal, p5, h5, c5, -⟩ := c4.u16
  obtain ⟨ttl, p6, h6, c6, -⟩ := c5.u8
  obtain ⟨proto, p7, h7, c7, -⟩ := c6.u8
  obtain ⟨cksum, p8, h8, c8, -⟩ := c7.u16
  obtain ⟨src, p9, h9, c9, -⟩ := c8.u32
  obtain ⟨dst, p10, h10, c10, -⟩ := c9.u32
  simp only [IPv4Header.parseFields, h1, h2, h3, h4, h5, h6, h7, h8, h9, h10]
  refine ⟨_, _, rfl, c10, fun size => ⟨?_, ?_, ?_⟩⟩
  · rw [(toNat_nibbles firstByte).1, v1 (le_trans (by decide) size), version]
  · rw [(toNat_nibbles firstByte).2, v1 (le_trans (by decide) size), ihl]
  · exact v3 (le_trans (by decide) size)

/-- The header that twenty bytes give. -/
def fields (b : List UInt8) : IPv4Header := (IPv4Header.parseFields ⟨b, .noError⟩).1

section Parse

variable {b : List UInt8}

/-- What `parse` looks at, in terms of the bytes. -/
theorem fields_spec (size : IPv4Header.length ≤ b.length) :
    IPv4Header.parseFields ⟨b, .noError⟩ = (fields b, ⟨b.drop IPv4Header.length, .noError⟩) ∧
      ((fields b).ver = 4 ↔ version b = 4) ∧ (fields b).hlen.toNat = ihl b ∧
      (fields b).len.toNat = totalLength b := by
  obtain ⟨h, p, read, consumed, values⟩ := parseFields_spec b
  obtain ⟨hver, hhlen, hlen⟩ := values size
  have hfields : fields b = h := congrArg Prod.fst read
  rw [hfields, ← consumed.eq_of_le size]
  refine ⟨read, ?_, hhlen, hlen⟩
  rw [← UInt8.toNat_inj, hver]
  rfl

/-- A header too short to have fields leaves everything as it was. -/
theorem header_parse_of_short (h : IPv4Header) (short : b.length < IPv4Header.length) :
    h.parse ⟨b, .noError⟩ = (.packetTooShort, h, ⟨b, .noError⟩) := by
  rw [IPv4Header.parse, if_pos short]

/-- The code decides whether a header is sound. -/
theorem headerSound_iff (b : List UInt8) :
    (InternetChecksum.add {} (b.take (4 * ihl b))).value = 0 ↔ HeaderSound b := by
  have hihl : ihl b < 16 := Nat.mod_lt _ (by decide)
  have hsize := List.length_take_le (4 * ihl b) b
  exact InternetChecksum.value_eq_zero_iff_sound (by decide) (by omega)

/-- `parse` as a sequence of conditions on the bytes. -/
theorem header_parse_eq (h : IPv4Header) (size : IPv4Header.length ≤ b.length) :
    h.parse ⟨b, .noError⟩ =
      let p : NetParser := ⟨b.drop IPv4Header.length, .noError⟩
      if b.length < 4 * ihl b then (.packetTooShort, fields b, p)
      else if version b ≠ 4 then (.wrongIPVersion, fields b, p)
      else if ihl b < 5 then (.headerTooShort, fields b, p)
      else if b.length ≠ totalLength b then (.truncatedPacket, fields b, p)
      else
        let p := p.removePrefix (ihl b * 4 - IPv4Header.length)
        if p.error ≠ .noError then (p.error, fields b, p)
        else if ¬HeaderSound b then (.badChecksum, fields b, p)
        else (.noError, fields b, p) := by
  obtain ⟨read, hver, hhlen, hlen⟩ := fields_spec size
  have hlt : (fields b).hlen < 5 ↔ ihl b < 5 := by
    rw [UInt8.lt_iff_toNat_lt, hhlen]
    rfl
  rw [IPv4Header.parse, if_neg (Nat.not_lt.mpr size)]
  simp only [read, hver, hhlen, hlen, hlt, ne_eq, headerSound_iff]

/-- A malformed header: the fields are read, and the options not skipped. -/
theorem header_parse_of_malformed (h : IPv4Header) (size : IPv4Header.length ≤ b.length)
    (malformed : ¬WellFormed b) :
    (h.parse ⟨b, .noError⟩).2 = (fields b, ⟨b.drop IPv4Header.length, .noError⟩) := by
  rw [header_parse_eq h size]
  dsimp only
  split_ifs with hsize hversion hihl htotal
  · rfl
  · rfl
  · rfl
  · rfl
  -- every check has passed
  all_goals
    exact absurd ⟨size, not_not.mp hversion, Nat.le_of_not_lt hihl, Nat.le_of_not_lt hsize,
      (not_not.mp htotal).symm⟩ malformed

/-- A well-formed one: they are skipped. -/
theorem header_parse_of_wellFormed (h : IPv4Header) (ok : WellFormed b) :
    h.parse ⟨b, .noError⟩ = (if ¬HeaderSound b then .badChecksum else .noError,
      fields b, ⟨b.drop (4 * ihl b), .noError⟩) := by
  have hge := ok.ihl_ge
  have skipped : NetParser.removePrefix ⟨b.drop IPv4Header.length, .noError⟩
      (ihl b * 4 - IPv4Header.length) = ⟨b.drop (4 * ihl b), .noError⟩ := by
    have hstop : IPv4Header.length + (ihl b * 4 - IPv4Header.length) = 4 * ihl b := by
      unfold IPv4Header.length
      omega
    have consumed := (Consumed.all ok.size).removePrefix (ihl b * 4 - IPv4Header.length)
    rw [hstop] at consumed
    exact consumed.eq_of_le ok.ihl_le
  rw [header_parse_eq h ok.size, if_neg (Nat.not_lt.mpr ok.ihl_le), if_neg (not_not.mpr ok.version),
    if_neg (Nat.not_lt.mpr hge), if_neg (not_not.mpr ok.total.symm)]
  simp only [skipped]
  split_ifs <;> first | rfl | contradiction

/-! ## The datagrams that are accepted -/

/-- The length of the payload wraps around. -/
theorem toNat_payloadLength (h : IPv4Header) :
    h.payloadLength.toNat = (h.len.toNat + 2 ^ 16 - 4 * h.hlen.toNat) % 2 ^ 16 := by
  have hhlen : h.hlen.toNat < 256 := h.hlen.toNat_lt
  have hwords : (4 * h.hlen.toUInt16).toNat = 4 * h.hlen.toNat := by
    rw [UInt16.toNat_mul, UInt8.toNat_toUInt16]
    exact Nat.mod_eq_of_lt (by show 4 * h.hlen.toNat < 2 ^ 16; omega)
  rw [IPv4Header.payloadLength, UInt16.toNat_sub, hwords]
  congr 1
  omega

/-- What `parse` makes of a header's outcome. -/
theorem parse_of_header (d : IPv4Datagram) {header : IPv4Header} {rest : List UInt8}
    (h : (d.header.parse ⟨b, .noError⟩).2 = (header, ⟨rest, .noError⟩)) :
    d.parse b = (if rest.length ≠ header.payloadLength.toNat then .packetTooShort else .noError,
      ⟨header, [rest]⟩) := by
  obtain ⟨result, outcome⟩ : ∃ result, d.header.parse ⟨b, .noError⟩ = (result, header, ⟨rest, .noError⟩) :=
    ⟨_, Prod.ext rfl h⟩
  rw [parse, outcome]
  simp only [BufferList.size, List.map_cons, List.map_nil, List.sum_cons, List.sum_nil, Nat.add_zero]
  split_ifs <;> rfl

/-- A fresh datagram expects a payload of 65516 bytes. -/
theorem parse_of_short (short : b.length < IPv4Header.length) :
    (({} : IPv4Datagram).parse b).1 ≠ .noError := by
  have houtcome := congrArg Prod.snd (header_parse_of_short ({} : IPv4Datagram).header short)
  -- the payload length of a header nothing was read into is 65516
  have hfresh : ({} : IPv4Header).payloadLength.toNat = 65516 := by decide
  have hne : b.length ≠ 65516 := by
    unfold IPv4Header.length at short
    omega
  rw [parse_of_header {} houtcome, hfresh, if_pos hne]
  show ParseResult.packetTooShort ≠ .noError
  decide

/-- A malformed datagram is accepted if its payload happens to have the right length. -/
theorem parse_of_malformed (size : IPv4Header.length ≤ b.length) (malformed : ¬WellFormed b) :
    (({} : IPv4Datagram).parse b).1 = .noError ↔
      b.length - IPv4Header.length = (totalLength b + 2 ^ 16 - 4 * ihl b) % 2 ^ 16 := by
  obtain ⟨-, -, hhlen, hlen⟩ := fields_spec size
  rw [parse_of_header {} (header_parse_of_malformed _ size malformed), toNat_payloadLength, hhlen,
    hlen, List.length_drop]
  simp

/-- A well-formed one is accepted, whatever its checksum. -/
theorem parse_of_wellFormed (d : IPv4Datagram) (ok : WellFormed b) :
    d.parse b = (.noError, ⟨fields b, [b.drop (4 * ihl b)]⟩) := by
  obtain ⟨-, -, hhlen, hlen⟩ := fields_spec ok.size
  have hle := ok.ihl_le
  have htotal := ok.total
  have hbound : totalLength b < 65536 := Consumed.fieldAt_lt b 2 2
  have hpayload : (b.drop (4 * ihl b)).length = (fields b).payloadLength.toNat := by
    rw [toNat_payloadLength, hhlen, hlen, List.length_drop]
    omega
  rw [parse_of_header d (congrArg Prod.snd (header_parse_of_wellFormed _ ok)),
    if_neg (not_not.mpr hpayload)]

/-- **Which datagrams are judged rightly.**  `parse` on a fresh datagram accepts exactly the
valid byte strings and leaves what follows the header as the payload, for every byte string
but the misjudged ones. -/
theorem parse_noError_iff_valid (b : List UInt8) :
    (((({} : IPv4Datagram).parse b).1 = .noError ↔ Valid b) ∧
      (Valid b → (({} : IPv4Datagram).parse b).2.payload = [b.drop (4 * ihl b)]))
    ↔ ¬Misjudged b := by
  by_cases size : IPv4Header.length ≤ b.length
  · by_cases ok : WellFormed b
    · have accepted := parse_of_wellFormed {} ok
      simp [accepted, Valid, Misjudged, ok, size]
    · have accepted := parse_of_malformed size ok
      simp [accepted, Valid, Misjudged, ok, size]
  · have rejected := parse_of_short (Nat.lt_of_not_le size)
    have invalid : ¬Valid b := fun h => size h.1.size
    simp [rejected, invalid, Misjudged, size]

end Parse

/-- A header of twenty bytes, with a zero where its checksum should be. -/
def badChecksum : List UInt8 :=
  [0x45, 0, 0, 20, 0, 0, 0x40, 0, 128, 6, 0, 0, 10, 0, 0, 1, 10, 0, 0, 2]

/-- It is accepted. -/
theorem parse_badChecksum :
    (({} : IPv4Datagram).parse badChecksum).1 = .noError ∧ ¬Valid badChecksum := by
  decide +kernel

/-! ## Serialising and parsing -/

/-- The sum of a pseudo-header is far from overflowing. -/
theorem pseudoCksum_lt (h : IPv4Header) : h.pseudoCksum < 2 ^ 20 := by
  have hsrc : h.src.toNat < 2 ^ 32 := h.src.toNat_lt
  have hdst : h.dst.toNat < 2 ^ 32 := h.dst.toNat_lt
  have hproto : h.proto.toNat < 2 ^ 8 := h.proto.toNat_lt
  have hlen : h.payloadLength.toNat < 2 ^ 16 := h.payloadLength.toNat_lt
  have hlow := fun n : ℕ => Nat.and_two_pow_sub_one_eq_mod n 16
  simp only [Nat.reducePow, Nat.reduceSub] at hlow
  refine (Nat.mod_le _ _).trans_lt ?_
  rw [hlow, hlow, Nat.shiftRight_eq_div_pow, Nat.shiftRight_eq_div_pow]
  omega

/-- A datagram whose header can be written down, and agrees with the payload.  It is more than
`serialize` asks for: a field that is too large for its bits is cut off there without a word. -/
structure Sendable (d : IPv4Datagram) : Prop where
  ver : d.header.ver = 4
  hlen_ge : 5 ≤ d.header.hlen.toNat
  hlen_le : d.header.hlen.toNat ≤ 15
  offset : d.header.offset.toNat < 2 ^ 13
  len : d.header.len.toNat = 4 * d.header.hlen.toNat + d.payload.size

instance (d : IPv4Datagram) : Decidable d.Sendable :=
  decidable_of_iff (d.header.ver = 4 ∧ 5 ≤ d.header.hlen.toNat ∧ d.header.hlen.toNat ≤ 15
      ∧ d.header.offset.toNat < 2 ^ 13
      ∧ d.header.len.toNat = 4 * d.header.hlen.toNat + d.payload.size)
    ⟨fun ⟨ver, ge, le, offset, len⟩ => ⟨ver, ge, le, offset, len⟩,
      fun h => ⟨h.ver, h.hlen_ge, h.hlen_le, h.offset, h.len⟩⟩

/-- A datagram that `serialize` does not reject.  Nothing more is known of its bytes; for them to
be read back it has to be `Sendable`. -/
structure Serializable (d : IPv4Datagram) : Prop where
  ver : d.header.ver = 4
  hlen_ge : 5 ≤ d.header.hlen.toNat
  size : d.payload.size = d.header.payloadLength.toNat

instance (d : IPv4Datagram) : Decidable d.Serializable :=
  decidable_of_iff (d.header.ver = 4 ∧ 5 ≤ d.header.hlen.toNat
      ∧ d.payload.size = d.header.payloadLength.toNat)
    ⟨fun ⟨ver, ge, size⟩ => ⟨ver, ge, size⟩, fun h => ⟨h.ver, h.hlen_ge, h.size⟩⟩

/-- The time to live does not matter. -/
theorem Serializable.aged {d : IPv4Datagram} (h : d.Serializable) (ttl : UInt8) :
    IPv4Datagram.Serializable { d with header := { d.header with ttl := ttl } } :=
  ⟨h.ver, h.hlen_ge, h.size⟩

/-- What survives is not rejected. -/
theorem Sendable.serializable {d : IPv4Datagram} (h : d.Sendable) : d.Serializable where
  ver := h.ver
  hlen_ge := h.hlen_ge
  size := by
    have hlen := h.len
    have hbound : d.header.len.toNat < 65536 := d.header.len.toNat_lt
    rw [toNat_payloadLength]
    omega

end IPv4Datagram

namespace IPv4Header

/-- The bytes of a header, options included. -/
def bytes (h : IPv4Header) : List UInt8 := NetUnparser.resize h.unparseFields (4 * h.hlen.toNat)

/-- The header with its checksum filled in. -/
def checksummed (h : IPv4Header) : IPv4Header :=
  { h with cksum := (InternetChecksum.add {} ({ h with cksum := 0 } : IPv4Header).bytes).value }

/-- The pseudo-header's sum does not depend on the checksum. -/
theorem pseudoCksum_checksummed (h : IPv4Header) : h.checksummed.pseudoCksum = h.pseudoCksum := rfl

/-- The first byte is taken apart as it was put together, if the length has four bits. -/
theorem firstByte_nibbles : ∀ hlen : BitVec 8, hlen.toNat ≤ 15 →
    (((4 : UInt8) <<< 4) ||| (⟨hlen⟩ &&& 0xf)) >>> 4 = 4 ∧
      (((4 : UInt8) <<< 4) ||| (⟨hlen⟩ &&& 0xf)) &&& 0x0f = ⟨hlen⟩ := by
  decide +kernel

/-- The flags and the offset have their own bits. -/
theorem foVal_and (h : IPv4Header) (mask : UInt16) :
    h.foVal &&& mask = (((if h.df then 0x4000 else 0) ||| (if h.mf then 0x2000 else 0)) &&& mask)
      ||| (h.offset &&& (0x1fff &&& mask)) := by
  rw [← UInt16.and_assoc, foVal]
  apply UInt16.toNat_inj.mp
  simp only [UInt16.toNat_and, UInt16.toNat_or, Nat.and_or_distrib_right]

theorem foVal_df (h : IPv4Header) : (h.foVal &&& 0x4000 != 0) = h.df := by
  rw [foVal_and, show (0x1fff : UInt16) &&& 0x4000 = 0 by decide, UInt16.and_zero, UInt16.or_zero]
  cases h.df <;> cases h.mf <;> decide

theorem foVal_mf (h : IPv4Header) : (h.foVal &&& 0x2000 != 0) = h.mf := by
  rw [foVal_and, show (0x1fff : UInt16) &&& 0x2000 = 0 by decide, UInt16.and_zero, UInt16.or_zero]
  cases h.df <;> cases h.mf <;> decide

/-- The offset is read back if it has its 13 bits. -/
theorem foVal_offset {h : IPv4Header} (offset : h.offset.toNat < 2 ^ 13) :
    h.foVal &&& 0x1fff = h.offset := by
  have hflags : ((if h.df then 0x4000 else 0) ||| (if h.mf then 0x2000 else 0)) &&& (0x1fff : UInt16)
      = 0 := by
    cases h.df <;> cases h.mf <;> decide
  rw [foVal_and, hflags, UInt16.and_self, UInt16.or_comm, UInt16.or_zero]
  apply UInt16.toNat_inj.mp
  rw [UInt16.toNat_and]
  exact (Nat.and_two_pow_sub_one_eq_mod _ 13).trans (Nat.mod_eq_of_lt offset)

/-- The fields that were written are read back. -/
theorem parseFields_unparse {h : IPv4Header} (ver : h.ver = 4) (hlen : h.hlen.toNat ≤ 15)
    (offset : h.offset.toNat < 2 ^ 13) (rest : List UInt8) :
    parseFields ⟨h.unparseFields ++ rest, .noError⟩ = (h, ⟨rest, .noError⟩) := by
  obtain ⟨hver, hhlen⟩ := firstByte_nibbles h.hlen.toBitVec hlen
  simp only [parseFields, unparseFields, List.append_assoc, NetParser.u8_unparse,
    NetParser.u16_unparse, NetParser.u32_unparse, foVal_df, foVal_mf, foVal_offset offset]
  rw [firstByte, ver, hver, hhlen, ← ver]

/-- The fields take twenty bytes. -/
theorem length_unparseFields (h : IPv4Header) : h.unparseFields.length = length := by
  simp only [unparseFields, List.length_append, NetUnparser.length_u8, NetUnparser.length_u16,
    NetUnparser.length_u32]
  rfl

theorem bytes_eq {h : IPv4Header} (hlen : 5 ≤ h.hlen.toNat) :
    h.bytes = h.unparseFields ++ List.replicate (4 * h.hlen.toNat - length) 0 := by
  have hsize : h.unparseFields.length ≤ 4 * h.hlen.toNat := by
    rw [length_unparseFields, length]
    omega
  rw [bytes, NetUnparser.resize_of_le hsize, length_unparseFields]

theorem length_bytes (h : IPv4Header) : h.bytes.length = 4 * h.hlen.toNat :=
  NetUnparser.length_resize _ _

/-- What `serialize` does not reject it writes. -/
theorem serialize_eq {h : IPv4Header} (ver : h.ver = 4) (hlen : 5 ≤ h.hlen.toNat) :
    h.serialize = .ok h.bytes := by
  rw [serialize, if_neg (not_not.mpr ver), if_neg (by unfold length; omega), bytes]

/-- The checksum stands in a word of its own. -/
theorem bytes_split {h : IPv4Header} (hlen : 5 ≤ h.hlen.toNat) :
    ∃ front back : List UInt8, front.length = 10 ∧ back.length = 4 * h.hlen.toNat - 12 ∧
      ∀ cksum : UInt16,
        ({ h with cksum := cksum } : IPv4Header).bytes = front ++ NetUnparser.u16 cksum ++ back := by
  refine ⟨NetUnparser.u8 h.firstByte ++ NetUnparser.u8 h.tos ++ NetUnparser.u16 h.len
      ++ NetUnparser.u16 h.id ++ NetUnparser.u16 h.foVal ++ NetUnparser.u8 h.ttl
      ++ NetUnparser.u8 h.proto,
    NetUnparser.u32 h.src ++ NetUnparser.u32 h.dst
      ++ List.replicate (4 * h.hlen.toNat - length) 0, ?_, ?_, fun cksum => ?_⟩
  · simp
  · simp [length]
    omega
  · rw [bytes_eq (h := { h with cksum := cksum }) hlen]
    simp only [unparseFields, List.append_assoc]
    rfl

/-- The checksum of a header whose checksum has been filled in is zero. -/
theorem checksummed_value {h : IPv4Header} (ge : 5 ≤ h.hlen.toNat) (le : h.hlen.toNat ≤ 15) :
    (InternetChecksum.add {} h.checksummed.bytes).value = 0 := by
  obtain ⟨front, back, hfront, hback, hsplit⟩ := bytes_split ge
  rw [checksummed, hsplit, hsplit]
  refine InternetChecksum.value_filled (by decide) (by rw [hfront]) ?_
  rw [hfront, hback]
  omega

end IPv4Header

namespace IPv4Datagram

variable {d : IPv4Datagram}

/-- What is written is the header with its checksum, and the payload. -/
theorem serialize_eq (h : d.Serializable) :
    d.serialize = .ok (d.header.checksummed.bytes :: d.payload) := by
  rw [serialize, if_neg (not_not.mpr h.size)]
  have hzero : ({ d.header with cksum := 0 } : IPv4Header).serialize
      = .ok ({ d.header with cksum := 0 } : IPv4Header).bytes :=
    IPv4Header.serialize_eq h.ver h.hlen_ge
  have hfilled : d.header.checksummed.serialize = .ok d.header.checksummed.bytes :=
    IPv4Header.serialize_eq h.ver h.hlen_ge
  simp only [hzero, bind, Except.bind]
  rw [IPv4Header.checksummed] at hfilled
  rw [hfilled]
  rfl

/-- **What `serialize` rejects**, and nothing else. -/
theorem serializable_of_serialize {bytes : BufferList} (h : d.serialize = .ok bytes) :
    d.Serializable := by
  unfold serialize at h
  split at h
  · cases h
  next size =>
  refine ⟨?_, ?_, not_not.mp size⟩
  · by_contra ver
    have rejected : ({ d.header with cksum := 0 } : IPv4Header).serialize
        = .error .wrongIPVersion := if_pos ver
    simp only [rejected, bind, Except.bind] at h
    cases h
  · by_contra short
    have small : 4 * d.header.hlen.toNat < IPv4Header.length := by
      unfold IPv4Header.length
      omega
    obtain ⟨fault, rejected⟩ : ∃ fault,
        ({ d.header with cksum := 0 } : IPv4Header).serialize = .error fault := by
      by_cases ver : d.header.ver ≠ 4
      · exact ⟨_, if_pos ver⟩
      · exact ⟨_, (if_neg ver).trans (if_pos small)⟩
    simp only [rejected, bind, Except.bind] at h
    cases h

/-- A byte string that `parse` accepts although `serialize` rejects what is read from it: it
is no IPv4 header, or too short a one, but its fields happen to give the number of bytes after
the first twenty as the payload's length. -/
def Unserializable (b : List UInt8) : Prop :=
  IPv4Header.length ≤ b.length ∧ (version b ≠ 4 ∨ ihl b < 5) ∧
    b.length - IPv4Header.length = (totalLength b + 2 ^ 16 - 4 * ihl b) % 2 ^ 16

instance (b : List UInt8) : Decidable (Unserializable b) := inferInstanceAs (Decidable (_ ∧ _))

/-- The header that is read has the fields of the first twenty bytes, and what follows is the
payload. -/
theorem header_parse_fields {b : List UInt8} (h : IPv4Header)
    (size : IPv4Header.length ≤ b.length) :
    ∃ rest, (h.parse ⟨b, .noError⟩).2 = (fields b, ⟨rest, .noError⟩) := by
  by_cases ok : WellFormed b
  · refine ⟨b.drop (4 * ihl b), ?_⟩
    rw [header_parse_of_wellFormed h ok]
  · exact ⟨b.drop IPv4Header.length, header_parse_of_malformed h size ok⟩

/-- **What is accepted can be serialised again**, but for those byte strings. -/
theorem serializable_of_parse {b : List UInt8} (h : ({} : IPv4Datagram).parse b = (.noError, d))
    (not : ¬ Unserializable b) : d.Serializable := by
  have accepted : (({} : IPv4Datagram).parse b).1 = .noError := congrArg Prod.fst h
  have size : IPv4Header.length ≤ b.length := by
    by_contra short
    exact parse_of_short (Nat.lt_of_not_le short) accepted
  have sound : version b = 4 ∧ 5 ≤ ihl b := by
    by_cases ok : WellFormed b
    · exact ⟨ok.version, ok.ihl_ge⟩
    · by_contra bad
      refine not ⟨size, ?_, (parse_of_malformed size ok).mp accepted⟩
      rwa [not_and_or, Nat.not_le] at bad
  obtain ⟨-, hver, hhlen, -⟩ := fields_spec size
  obtain ⟨rest, hheader⟩ := header_parse_fields ({} : IPv4Datagram).header size
  have hparse := parse_of_header {} hheader
  rw [h] at hparse
  obtain ⟨hresult, rfl⟩ := Prod.mk.inj hparse
  have agrees : rest.length = (fields b).payloadLength.toNat := by
    by_contra ne
    rw [if_pos ne] at hresult
    cases hresult
  refine ⟨hver.mpr sound.1, hhlen ▸ sound.2, ?_⟩
  simpa [BufferList.size] using agrees

/-- The bytes of a datagram that is sent are well formed, and give its header back. -/
theorem wellFormed_bytes (h : d.Sendable) :
    WellFormed (d.header.checksummed.bytes ++ d.payload.concatenate) ∧
      fields (d.header.checksummed.bytes ++ d.payload.concatenate) = d.header.checksummed ∧
      ihl (d.header.checksummed.bytes ++ d.payload.concatenate) = d.header.hlen.toNat := by
  have hge := h.hlen_ge
  have hlength : (d.header.checksummed.bytes ++ d.payload.concatenate).length
      = 4 * d.header.hlen.toNat + d.payload.size := by
    rw [List.length_append, IPv4Header.length_bytes, BufferList.size_eq]
    rfl
  have size : IPv4Header.length
      ≤ (d.header.checksummed.bytes ++ d.payload.concatenate).length := by
    rw [hlength, IPv4Header.length]
    omega
  have hfields : fields (d.header.checksummed.bytes ++ d.payload.concatenate)
      = d.header.checksummed := by
    rw [fields, IPv4Header.bytes_eq (h := d.header.checksummed) hge, List.append_assoc,
      IPv4Header.parseFields_unparse (h := d.header.checksummed) h.ver h.hlen_le h.offset]
  obtain ⟨-, hver, hhlen, hlen⟩ := fields_spec size
  rw [hfields] at hver hhlen hlen
  refine ⟨⟨size, hver.mp h.ver, hhlen ▸ hge, ?_, ?_⟩, hfields, hhlen.symm⟩
  · rw [← hhlen, hlength]
    exact Nat.le_add_right _ _
  · rw [← hlen, hlength]
    exact h.len

/-- **Serialising and parsing** gives the datagram back, with its checksum filled in and its
payload in one buffer; and the bytes in between are a valid datagram. -/
theorem parse_serialize (h : d.Sendable) (fresh : IPv4Datagram) :
    ∃ bytes : BufferList, d.serialize = .ok bytes ∧ Valid bytes.concatenate ∧
      fresh.parse bytes.concatenate
        = (.noError, ⟨d.header.checksummed, [d.payload.concatenate]⟩) := by
  obtain ⟨wellFormed, hfields, hihl⟩ := wellFormed_bytes h
  have hlength : d.header.checksummed.bytes.length = 4 * d.header.hlen.toNat :=
    d.header.checksummed.length_bytes
  refine ⟨_, serialize_eq h.serializable, ⟨wellFormed, ?_⟩, ?_⟩
  · show HeaderSound (d.header.checksummed.bytes ++ d.payload.concatenate)
    rw [← headerSound_iff, hihl, List.take_left' hlength]
    exact IPv4Header.checksummed_value h.hlen_ge h.hlen_le
  · show fresh.parse (d.header.checksummed.bytes ++ d.payload.concatenate) = _
    rw [parse_of_wellFormed fresh wellFormed, hfields, hihl, List.drop_left' hlength]

/-- **The codec's round trip.**  A datagram whose header fits it is serialised; the header's
parser accepts the bytes, with their checksum; and the datagram that is parsed has the header
and the payload of the first, but for the checksum. -/
theorem datagram_round_trip (d into : IPv4Datagram) (header : IPv4Header) (ver : d.header.ver = 4)
    (ge : 5 ≤ d.header.hlen.toNat) (le : d.header.hlen.toNat ≤ 15)
    (offset : d.header.offset.toNat < 2 ^ 13)
    (len : d.header.len.toNat = 4 * d.header.hlen.toNat + d.payload.size) :
    ∃ bytes parsed, d.serialize = .ok bytes ∧
      (header.parse ⟨bytes.concatenate, .noError⟩).1 = .noError ∧
      into.parse bytes.concatenate = (.noError, parsed) ∧
      parsed.header = { d.header with cksum := parsed.header.cksum } ∧
      parsed.payload.concatenate = d.payload.concatenate := by
  obtain ⟨bytes, serialized, valid, parsed⟩ :=
    parse_serialize ⟨ver, ge, le, offset, len⟩ into
  refine ⟨bytes, _, serialized, ?_, parsed, rfl, ?_⟩
  · rw [header_parse_of_wellFormed header valid.1, if_neg (not_not.mpr valid.2)]
  · simp [BufferList.concatenate]

/-- A datagram with options and two buffers, the first of them of odd length. -/
def twoBuffers : IPv4Datagram :=
  { header := { hlen := 6, len := 28, offset := 5, mf := true, src := 0x0a000001, dst := 0x0a000002 }
    payload := [[1, 2, 3], [4]] }

theorem datagram_round_trip_twoBuffers :
    ∃ bytes parsed, twoBuffers.serialize = .ok bytes ∧
      (({} : IPv4Header).parse ⟨bytes.concatenate, .noError⟩).1 = .noError ∧
      ({} : IPv4Datagram).parse bytes.concatenate = (.noError, parsed) ∧
      parsed.header = { twoBuffers.header with cksum := parsed.header.cksum } ∧
      parsed.payload.concatenate = [1, 2, 3, 4] :=
  datagram_round_trip twoBuffers {} {} rfl (by decide) (by decide) (by decide) (by decide)

end IPv4Datagram

end Sponge
