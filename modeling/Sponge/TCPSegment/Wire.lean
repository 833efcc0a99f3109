import Sponge.InternetChecksum
import Sponge.TCPSegment

/-!
# TCP segments on the wire

Embedding of `TCPHeader::parse` and `TCPHeader::serialize` of
`libsponge/tcp_helpers/tcp_header.cc` and of `TCPSegment::parse` and
`TCPSegment::serialize` of `libsponge/tcp_helpers/tcp_segment.cc`.

The segment's parser checks the checksum first, over everything it is given, then lets
the header's parser run and returns the error of the `NetParser`.  A header that says it is
shorter than five words is reported in the result of the header's parser only, which the
segment's parser drops.

Main results:

* `parse_noError_iff_valid_segment` — for which byte strings the segments accepted are the valid
  ones.
* `corruption_detected` — a change of one byte of a segment whose checksum was right is
  reported.
* `parse_serialize` — a segment that is serialised and parsed is the segment with its
  checksum filled in; `segment_round_trip` says it field by field.

### Two results of one parser

The parser of the header returns a result and leaves an error in the `NetParser`, and the
two can differ: a data offset below five is returned and not left.  The parser of the
segment looks at the second only.  Such a segment is accepted, with the bytes after the
twentieth as its payload.  `Misjudged` are these byte strings, and the acceptance theorem is
an equivalence with their absence.

### The range of the pseudo-header

The sum of the pseudo-header comes from the datagram and is a 32-bit number in the source.
`pseudo < 2 ^ 20` covers every sum of its six words, and together with the length of a
datagram it keeps the checksum's accumulator from overflowing.
-/

namespace Sponge

namespace TCPHeader

/-- `LENGTH`. -/
def length : ℕ := 20

/-- The fields, in the order in which `parse` reads them. -/
def parseFields (p : NetParser) : TCPHeader × NetParser :=
  let (sport, p) := p.u16
  let (dport, p) := p.u16
  let (seqno, p) := p.u32
  let (ackno, p) := p.u32
  let (doff, p) := p.u8
  let (flB, p) := p.u8
  let (win, p) := p.u16
  let (cksum, p) := p.u16
  let (uptr, p) := p.u16
  ({ sport := sport, dport := dport, seqno := ⟨seqno⟩, ackno := ⟨ackno⟩, doff := doff >>> 4,
     urg := flB &&& 0x20 != 0, ack := flB &&& 0x10 != 0, psh := flB &&& 0x08 != 0,
     rst := flB &&& 0x04 != 0, syn := flB &&& 0x02 != 0, fin := flB &&& 0x01 != 0,
     win := win, cksum := cksum, uptr := uptr }, p)

/-- `parse`: the result, the header and the parser afterwards. -/
def parse (p : NetParser) : ParseResult × TCPHeader × NetParser :=
  let (h, p) := parseFields p
  if h.doff < 5 then (.headerTooShort, h, p)
  else
    let p := p.removePrefix (h.doff.toNat * 4 - length)
    if p.error ≠ .noError then (p.error, h, p) else (.noError, h, p)

/-- The byte of the flags. -/
def flB (h : TCPHeader) : UInt8 :=
  (if h.urg then 0x20 else 0) ||| (if h.ack then 0x10 else 0) ||| (if h.psh then 0x08 else 0)
    ||| (if h.rst then 0x04 else 0) ||| (if h.syn then 0x02 else 0) ||| (if h.fin then 0x01 else 0)

/-- The fields, in the order in which `serialize` writes them. -/
def unparseFields (h : TCPHeader) : List UInt8 :=
  NetUnparser.u16 h.sport ++ NetUnparser.u16 h.dport ++ NetUnparser.u32 h.seqno.rawValue
    ++ NetUnparser.u32 h.ackno.rawValue ++ NetUnparser.u8 (h.doff <<< 4) ++ NetUnparser.u8 h.flB
    ++ NetUnparser.u16 h.win ++ NetUnparser.u16 h.cksum ++ NetUnparser.u16 h.uptr

/-- `serialize` of the header: options are zeros. -/
def serialize (h : TCPHeader) : Except WireFault (List UInt8) :=
  if h.doff < 5 then .error .tcpHeaderTooShort
  else .ok (NetUnparser.resize h.unparseFields (4 * h.doff.toNat))

end TCPHeader

namespace TCPSegment

/-- `parse`: the result and the segment afterwards.  The header's result is dropped. -/
def parse (seg : TCPSegment) (buffer : List UInt8) (datagramLayerChecksum : ℕ) :
    ParseResult × TCPSegment :=
  let check := InternetChecksum.add ⟨datagramLayerChecksum, false⟩ buffer
  if check.value ≠ 0 then (.badChecksum, seg)
  else
    let (_, header, p) := TCPHeader.parse ⟨buffer, .noError⟩
    (p.error, ⟨header, p.buffer⟩)

def serialize (seg : TCPSegment) (datagramLayerChecksum : ℕ) : Except WireFault BufferList := do
  let headerOut := { seg.header with cksum := 0 }
  let check : InternetChecksum := ⟨datagramLayerChecksum, false⟩
  let check := check.add (← headerOut.serialize)
  let check := check.add seg.payload
  let headerOut := { headerOut with cksum := check.value }
  .ok [← headerOut.serialize, seg.payload]

/-! ## What a segment is -/

/-- The data-offset field. -/
def dataOffset (b : List UInt8) : ℕ := fieldAt b 12 1 / 16

/-- A byte string that is a TCP segment, under a pseudo-header's sum.  The data offset counts
words of four bytes, and can reach past the end of a short string. -/
structure Valid (b : List UInt8) (pseudo : ℕ) : Prop where
  sound : InternetChecksum.Sound pseudo b
  size : TCPHeader.length ≤ b.length
  doff_ge : 5 ≤ dataOffset b
  doff_le : 4 * dataOffset b ≤ b.length

/-- **The byte strings that are misjudged**: those whose checksum is right and whose data
offset is too small. -/
def Misjudged (b : List UInt8) (pseudo : ℕ) : Prop :=
  InternetChecksum.Sound pseudo b ∧ TCPHeader.length ≤ b.length ∧ dataOffset b < 5

instance (b : List UInt8) (pseudo : ℕ) : Decidable (Valid b pseudo) :=
  decidable_of_iff (InternetChecksum.Sound pseudo b ∧ TCPHeader.length ≤ b.length
      ∧ 5 ≤ dataOffset b ∧ 4 * dataOffset b ≤ b.length)
    ⟨fun ⟨sound, size, ge, le⟩ => ⟨sound, size, ge, le⟩,
      fun h => ⟨h.sound, h.size, h.doff_ge, h.doff_le⟩⟩

/-! ## The segments that are accepted -/

/-- The fields take twenty bytes; of their values only the data offset matters to `parse`. -/
theorem parseFields_spec (b : List UInt8) :
    ∃ h p, TCPHeader.parseFields ⟨b, .noError⟩ = (h, p) ∧ Consumed b TCPHeader.length p ∧
      (TCPHeader.length ≤ b.length → h.doff.toNat = dataOffset b) := by
  obtain ⟨sport, p1, h1, c1, -⟩ := (Consumed.start b).u16
  obtain ⟨dport, p2, h2, c2, -⟩ := c1.u16
  obtain ⟨seqno, p3, h3, c3, -⟩ := c2.u32
  obtain ⟨ackno, p4, h4, c4, -⟩ := c3.u32
  obtain ⟨doff, p5, h5, c5, v5⟩ := c4.u8
  obtain ⟨flB, p6, h6, c6, -⟩ := c5.u8
  obtain ⟨win, p7, h7, c7, -⟩ := c6.u16
  obtain ⟨cksum, p8, h8, c8, -⟩ := c7.u16
  obtain ⟨uptr, p9, h9, c9, -⟩ := c8.u16
  simp only [TCPHeader.parseFields, h1, h2, h3, h4, h5, h6, h7, h8, h9]
  refine ⟨_, _, rfl, c9, fun size => ?_⟩
  show (doff >>> 4).toNat = dataOffset b
  rw [UInt8.toNat_shiftRight, v5 (le_trans (by decide) size), dataOffset]
  exact Nat.shiftRight_eq_div_pow _ 4

section Parse

variable {b : List UInt8} {pseudo : ℕ}

/-- A packet that ends within the fields sets the parser's error. -/
theorem header_parse_of_short (short : b.length < TCPHeader.length) :
    (TCPHeader.parse ⟨b, .noError⟩).2.2.error ≠ .noError := by
  obtain ⟨h, p, read, consumed, -⟩ := parseFields_spec b
  have hskip := consumed.removePrefix (h.doff.toNat * 4 - TCPHeader.length)
  have failed : p.error ≠ .noError := fun hp => by
    have := consumed.noError_iff.mp hp
    omega
  have failed' : (p.removePrefix (h.doff.toNat * 4 - TCPHeader.length)).error ≠ .noError :=
    fun hp => by
      have := hskip.noError_iff.mp hp
      omega
  rw [TCPHeader.parse, read]
  dsimp only
  split_ifs
  · exact failed
  · exact failed'

/-- The header that twenty bytes give. -/
def fields (b : List UInt8) : TCPHeader := (TCPHeader.parseFields ⟨b, .noError⟩).1

/-- Twenty bytes are enough for the fields. -/
theorem fields_spec (size : TCPHeader.length ≤ b.length) :
    TCPHeader.parseFields ⟨b, .noError⟩ = (fields b, ⟨b.drop TCPHeader.length, .noError⟩) ∧
      (fields b).doff.toNat = dataOffset b := by
  obtain ⟨h, p, read, consumed, value⟩ := parseFields_spec b
  have hfields : fields b = h := congrArg Prod.fst read
  rw [hfields, ← consumed.eq_of_le size]
  exact ⟨read, value size⟩

/-- A data offset that is too small leaves the parser after the fields. -/
theorem header_parse_of_lt (size : TCPHeader.length ≤ b.length) (hdoff : dataOffset b < 5) :
    (TCPHeader.parse ⟨b, .noError⟩).2 = (fields b, ⟨b.drop TCPHeader.length, .noError⟩) := by
  obtain ⟨read, hvalue⟩ := fields_spec size
  have hlt : (fields b).doff < 5 := UInt8.lt_iff_toNat_lt.mpr (by rw [hvalue]; exact hdoff)
  rw [TCPHeader.parse, read]
  dsimp only
  rw [if_pos hlt]

/-- Otherwise the parser is moved to the end of the header. -/
theorem header_parse_of_ge (size : TCPHeader.length ≤ b.length) (hdoff : 5 ≤ dataOffset b) :
    ∃ p, (TCPHeader.parse ⟨b, .noError⟩).2 = (fields b, p) ∧ Consumed b (4 * dataOffset b) p := by
  obtain ⟨read, hvalue⟩ := fields_spec size
  have hge : ¬(fields b).doff < 5 := fun h => by
    have hlt : (fields b).doff.toNat < 5 := UInt8.lt_iff_toNat_lt.mp h
    omega
  have hstop : TCPHeader.length + (dataOffset b * 4 - TCPHeader.length) = 4 * dataOffset b := by
    unfold TCPHeader.length
    omega
  have consumed := (Consumed.all size).removePrefix (dataOffset b * 4 - TCPHeader.length)
  rw [hstop] at consumed
  refine ⟨_, ?_, consumed⟩
  rw [TCPHeader.parse, read]
  dsimp only
  rw [if_neg hge, hvalue]
  split_ifs <;> rfl

/-- A segment with the right checksum gets what the parser of the header leaves. -/
theorem parse_of_sound (seg : TCPSegment) (hpseudo : pseudo < 2 ^ 20) (hb : b.length ≤ 65535)
    (sound : InternetChecksum.Sound pseudo b) :
    seg.parse b pseudo = ((TCPHeader.parse ⟨b, .noError⟩).2.2.error,
      ⟨(TCPHeader.parse ⟨b, .noError⟩).2.1, (TCPHeader.parse ⟨b, .noError⟩).2.2.buffer⟩) := by
  have hvalue := (InternetChecksum.value_eq_zero_iff_sound hpseudo hb).mpr sound
  rw [parse, if_neg (not_not.mpr hvalue)]

/-- Any other is refused unread. -/
theorem parse_of_not_sound (seg : TCPSegment) (hpseudo : pseudo < 2 ^ 20) (hb : b.length ≤ 65535)
    (bad : ¬InternetChecksum.Sound pseudo b) : seg.parse b pseudo = (.badChecksum, seg) := by
  have hvalue := mt (InternetChecksum.value_eq_zero_iff_sound hpseudo hb).mp bad
  rw [parse, if_pos hvalue]

/-- A valid segment is split at its data offset. -/
theorem parse_of_valid (seg : TCPSegment) (hpseudo : pseudo < 2 ^ 20) (hb : b.length ≤ 65535)
    (h : Valid b pseudo) :
    seg.parse b pseudo = (.noError, ⟨fields b, b.drop (4 * dataOffset b)⟩) := by
  obtain ⟨p, outcome, consumed⟩ := header_parse_of_ge h.size h.doff_ge
  rw [parse_of_sound seg hpseudo hb h.sound, outcome, consumed.eq_of_le h.doff_le]

/-- **Which segments are judged rightly.**  `parse` accepts exactly the valid byte strings and
leaves what follows the header as the payload, for every byte string but the misjudged
ones. -/
theorem parse_noError_iff_valid_segment (seg : TCPSegment) (hb : b.length ≤ 65535)
    (hpseudo : pseudo < 2 ^ 20) :
    (((seg.parse b pseudo).1 = .noError ↔ Valid b pseudo) ∧
      (Valid b pseudo → (seg.parse b pseudo).2.payload = b.drop (4 * dataOffset b)))
    ↔ ¬Misjudged b pseudo := by
  have hpayload : Valid b pseudo → (seg.parse b pseudo).2.payload = b.drop (4 * dataOffset b) :=
    fun h => by rw [parse_of_valid seg hpseudo hb h]
  rw [and_iff_left hpayload]
  by_cases sound : InternetChecksum.Sound pseudo b
  · rw [parse_of_sound seg hpseudo hb sound]
    by_cases size : TCPHeader.length ≤ b.length
    · rcases Nat.lt_or_ge (dataOffset b) 5 with hdoff | hdoff
      · -- accepted, and not valid
        rw [header_parse_of_lt size hdoff]
        have misjudged : Misjudged b pseudo := ⟨sound, size, hdoff⟩
        have invalid : ¬Valid b pseudo := fun h => absurd h.doff_ge (Nat.not_le.mpr hdoff)
        simp [misjudged, invalid]
      · obtain ⟨p, outcome, consumed⟩ := header_parse_of_ge size hdoff
        have judged : ¬Misjudged b pseudo := fun h => absurd h.2.2 (Nat.not_lt.mpr hdoff)
        have hvalid : Valid b pseudo ↔ 4 * dataOffset b ≤ b.length :=
          ⟨fun h => h.doff_le, fun h => ⟨sound, size, hdoff, h⟩⟩
        rw [outcome, consumed.noError_iff, hvalid]
        simp [judged]
    · have failed := header_parse_of_short (Nat.lt_of_not_le size)
      have judged : ¬Misjudged b pseudo := fun h => size h.2.1
      have invalid : ¬Valid b pseudo := fun h => size h.size
      simp [failed, judged, invalid]
  · have judged : ¬Misjudged b pseudo := fun h => sound h.1
    have invalid : ¬Valid b pseudo := fun h => sound h.sound
    simp [parse_of_not_sound seg hpseudo hb sound, judged, invalid]

/-- A segment that is not reported for its checksum has it right. -/
theorem sound_of_parse (seg : TCPSegment) (hpseudo : pseudo < 2 ^ 20) (hb : b.length ≤ 65535)
    (passed : (seg.parse b pseudo).1 ≠ .badChecksum) : InternetChecksum.Sound pseudo b := by
  by_contra bad
  exact passed (by rw [parse_of_not_sound seg hpseudo hb bad])

/-- **A change of one byte is detected**, wherever it is: if the segment was not reported for
its checksum, it is after the change. -/
theorem corruption_detected (seg seg' : TCPSegment) (hb : b.length ≤ 65535)
    (hpseudo : pseudo < 2 ^ 20) (passed : (seg.parse b pseudo).1 ≠ .badChecksum) {i : ℕ}
    (hi : i < b.length) {byte : UInt8} (changed : byte ≠ b[i]) :
    (seg'.parse (b.set i byte) pseudo).1 = .badChecksum := by
  have sound := sound_of_parse seg hpseudo hb passed
  have hsize : (b.set i byte).length ≤ 65535 := by
    rw [List.length_set]
    exact hb
  rw [parse_of_not_sound seg' hpseudo hsize (sound.not_set hi changed)]

end Parse

/-- A SYN from 10.0.0.1 to 10.0.0.2, with its checksum right and a data offset of zero. -/
def zeroOffset : List UInt8 :=
  [0x03, 0xe8, 0x00, 0x50, 0, 0, 0, 0, 0, 0, 0, 0, 0x00, 0x02, 0x04, 0x00, 0xe3, 0xa8, 0, 0]

/-- The sum of the addresses, the protocol and the length, for `zeroOffset`. -/
def zeroOffsetPseudo : ℕ := 0x0a00 + 0x0001 + (0x0a00 + 0x0002) + 6 + 20

/-- It is accepted. -/
theorem parse_zeroOffset :
    (({} : TCPSegment).parse zeroOffset zeroOffsetPseudo).1 = .noError
      ∧ ¬Valid zeroOffset zeroOffsetPseudo := by
  decide +kernel

/-- The same segment with its offset in place, and the checksum that belongs to it. -/
def fiveWords : List UInt8 :=
  [0x03, 0xe8, 0x00, 0x50, 0, 0, 0, 0, 0, 0, 0, 0, 0x50, 0x02, 0x04, 0x00, 0x93, 0xa8, 0, 0]

theorem parse_noError_iff_valid_segment_fiveWords :
    (({} : TCPSegment).parse fiveWords zeroOffsetPseudo).1 = .noError :=
  ((parse_noError_iff_valid_segment {} (by decide) (by decide)).mpr
    fun h => absurd h.2.2 (by decide)).1.mpr (by decide +kernel)

/-- The source port of that segment is changed. -/
theorem corruption_detected_sport :
    (({} : TCPSegment).parse fiveWords zeroOffsetPseudo).1 ≠ .badChecksum ∧
      (({} : TCPSegment).parse (fiveWords.set 1 0xe9) zeroOffsetPseudo).1 = .badChecksum := by
  have passed : (({} : TCPSegment).parse fiveWords zeroOffsetPseudo).1 ≠ .badChecksum := by
    decide +kernel
  exact ⟨passed, corruption_detected {} {} (by decide) (by decide) passed (by decide) (by decide)⟩

end TCPSegment

/-! ## Serialising and parsing -/

namespace TCPHeader

/-- The bytes of a header, options included. -/
def bytes (h : TCPHeader) : List UInt8 := NetUnparser.resize h.unparseFields (4 * h.doff.toNat)

/-- A number of four bits survives the shifts. -/
theorem doff_nibble : ∀ doff : BitVec 8, doff.toNat ≤ 15 →
    ((⟨doff⟩ : UInt8) <<< 4) >>> 4 = ⟨doff⟩ := by
  decide +kernel

/-- Each flag has its own bit. -/
theorem flB_bits (h : TCPHeader) :
    (h.flB &&& 0x20 != 0) = h.urg ∧ (h.flB &&& 0x10 != 0) = h.ack ∧ (h.flB &&& 0x08 != 0) = h.psh ∧
      (h.flB &&& 0x04 != 0) = h.rst ∧ (h.flB &&& 0x02 != 0) = h.syn ∧
      (h.flB &&& 0x01 != 0) = h.fin := by
  rw [flB]
  generalize h.urg = urg, h.ack = ack, h.psh = psh, h.rst = rst, h.syn = syn, h.fin = fin
  revert urg ack psh rst syn fin
  decide +kernel

/-- The fields that were written are read back. -/
theorem parseFields_unparse {h : TCPHeader} (doff : h.doff.toNat ≤ 15) (rest : List UInt8) :
    parseFields ⟨h.unparseFields ++ rest, .noError⟩ = (h, ⟨rest, .noError⟩) := by
  obtain ⟨hurg, hack, hpsh, hrst, hsyn, hfin⟩ := h.flB_bits
  have hdoff : (h.doff <<< 4) >>> 4 = h.doff := doff_nibble h.doff.toBitVec doff
  simp only [parseFields, unparseFields, List.append_assoc, NetParser.u8_unparse,
    NetParser.u16_unparse, NetParser.u32_unparse, hdoff, hurg, hack, hpsh, hrst, hsyn, hfin]

theorem length_unparseFields (h : TCPHeader) : h.unparseFields.length = length := by
  simp only [unparseFields, List.length_append, NetUnparser.length_u8, NetUnparser.length_u16,
    NetUnparser.length_u32]
  rfl

/-- The fields, and zeros up to the data offset. -/
theorem bytes_eq {h : TCPHeader} (doff : 5 ≤ h.doff.toNat) :
    h.bytes = h.unparseFields ++ List.replicate (4 * h.doff.toNat - length) 0 := by
  have hsize : h.unparseFields.length ≤ 4 * h.doff.toNat := by
    rw [length_unparseFields, length]
    omega
  rw [bytes, NetUnparser.resize_of_le hsize, length_unparseFields]

theorem length_bytes (h : TCPHeader) : h.bytes.length = 4 * h.doff.toNat :=
  NetUnparser.length_resize _ _

/-- The checksum stands in a word of its own. -/
theorem bytes_split {h : TCPHeader} (doff : 5 ≤ h.doff.toNat) :
    ∃ front back : List UInt8, front.length = 16 ∧ back.length = 4 * h.doff.toNat - 18 ∧
      ∀ cksum : UInt16,
        ({ h with cksum := cksum } : TCPHeader).bytes = front ++ NetUnparser.u16 cksum ++ back := by
  refine ⟨NetUnparser.u16 h.sport ++ NetUnparser.u16 h.dport ++ NetUnparser.u32 h.seqno.rawValue
      ++ NetUnparser.u32 h.ackno.rawValue ++ NetUnparser.u8 (h.doff <<< 4) ++ NetUnparser.u8 h.flB
      ++ NetUnparser.u16 h.win,
    NetUnparser.u16 h.uptr ++ List.replicate (4 * h.doff.toNat - length) 0, ?_, ?_,
    fun cksum => ?_⟩
  · simp
  · simp [length]
    omega
  · rw [bytes_eq (h := { h with cksum := cksum }) doff]
    simp only [unparseFields, List.append_assoc]
    rfl

theorem serialize_eq {h : TCPHeader} (doff : 5 ≤ h.doff.toNat) : h.serialize = .ok h.bytes := by
  have hdoff : ¬h.doff < 5 := fun hlt => by
    have : h.doff.toNat < 5 := UInt8.lt_iff_toNat_lt.mp hlt
    omega
  rw [serialize, if_neg hdoff, bytes]

end TCPHeader

namespace TCPSegment

variable {seg : TCPSegment} {pseudo : ℕ}

/-- The header with the segment's checksum filled in. -/
def checksummed (seg : TCPSegment) (pseudo : ℕ) : TCPHeader :=
  { seg.header with
    cksum := (InternetChecksum.add ⟨pseudo, false⟩
      (({ seg.header with cksum := 0 } : TCPHeader).bytes ++ seg.payload)).value }

theorem serialize_eq (doff : 5 ≤ seg.header.doff.toNat) :
    seg.serialize pseudo = .ok [(seg.checksummed pseudo).bytes, seg.payload] := by
  have hzero : ({ seg.header with cksum := 0 } : TCPHeader).serialize
      = .ok ({ seg.header with cksum := 0 } : TCPHeader).bytes := TCPHeader.serialize_eq doff
  have hfilled : (seg.checksummed pseudo).serialize = .ok (seg.checksummed pseudo).bytes :=
    TCPHeader.serialize_eq doff
  simp only [serialize, hzero, bind, Except.bind]
  rw [checksummed, InternetChecksum.add_append] at hfilled
  rw [hfilled]
  simp only [checksummed, InternetChecksum.add_append]

theorem length_checksummed (seg : TCPSegment) (pseudo : ℕ) :
    (seg.checksummed pseudo).bytes.length = 4 * seg.header.doff.toNat :=
  (seg.checksummed pseudo).length_bytes

/-- The checksum of a segment whose checksum has been filled in is zero. -/
theorem checksummed_sound (hpseudo : pseudo < 2 ^ 20) (doff : 5 ≤ seg.header.doff.toNat)
    (size : 4 * seg.header.doff.toNat + seg.payload.length ≤ 65535) :
    InternetChecksum.Sound pseudo ((seg.checksummed pseudo).bytes ++ seg.payload) := by
  obtain ⟨front, back, hfront, hback, hsplit⟩ := TCPHeader.bytes_split doff
  have hlength : ((seg.checksummed pseudo).bytes ++ seg.payload).length ≤ 65535 := by
    rw [List.length_append, length_checksummed]
    exact size
  rw [← InternetChecksum.value_eq_zero_iff_sound hpseudo hlength, checksummed, hsplit, hsplit,
    List.append_assoc _ back, List.append_assoc _ back]
  refine InternetChecksum.value_filled hpseudo (by rw [hfront]) ?_
  rw [hfront, List.length_append, hback]
  omega

/-- **Serialising and parsing** gives the segment back, with its checksum filled in.  Options are
not kept: they are written as zeros and skipped. -/
theorem parse_serialize (seg : TCPSegment) (hpseudo : pseudo < 2 ^ 20)
    (ge : 5 ≤ seg.header.doff.toNat) (le : seg.header.doff.toNat ≤ 15)
    (size : 4 * seg.header.doff.toNat + seg.payload.length ≤ 65535) (fresh : TCPSegment) :
    ∃ bytes : BufferList, seg.serialize pseudo = .ok bytes ∧
      bytes.concatenate.length = 4 * seg.header.doff.toNat + seg.payload.length ∧
      fresh.parse bytes.concatenate pseudo
        = (.noError, ⟨seg.checksummed pseudo, seg.payload⟩) := by
  set b := (seg.checksummed pseudo).bytes ++ seg.payload with hb
  have hlength : b.length = 4 * seg.header.doff.toNat + seg.payload.length := by
    rw [hb, List.length_append, length_checksummed]
  have hsize : TCPHeader.length ≤ b.length := by
    rw [hlength, TCPHeader.length]
    omega
  have hfields : fields b = seg.checksummed pseudo := by
    rw [fields, hb, TCPHeader.bytes_eq (h := seg.checksummed pseudo) ge, List.append_assoc,
      TCPHeader.parseFields_unparse (h := seg.checksummed pseudo) le]
  have hdoff : seg.header.doff.toNat = dataOffset b := by
    have := (fields_spec hsize).2
    rwa [hfields] at this
  have valid : Valid b pseudo :=
    ⟨checksummed_sound hpseudo ge size, hsize, hdoff ▸ ge, by omega⟩
  have hbytes : BufferList.concatenate [(seg.checksummed pseudo).bytes, seg.payload] = b := by
    simp [BufferList.concatenate, hb]
  refine ⟨_, serialize_eq ge, ?_, ?_⟩
  · rw [hbytes, hlength]
  · rw [hbytes, parse_of_valid fresh hpseudo (by omega) valid, hfields, ← hdoff, hb,
      List.drop_left' (length_checksummed seg pseudo)]

/-- **The codec's round trip.**  What is parsed from a serialised segment has the header and
the payload of the segment, but for the checksum. -/
theorem segment_round_trip (seg into : TCPSegment) (hpseudo : pseudo < 2 ^ 20)
    (ge : 5 ≤ seg.header.doff.toNat) (le : seg.header.doff.toNat ≤ 15)
    (size : seg.payload.length ≤ 65475) :
    ∃ bytes parsed, seg.serialize pseudo = .ok bytes ∧
      into.parse bytes.concatenate pseudo = (.noError, parsed) ∧
      parsed.header = { seg.header with cksum := parsed.header.cksum } ∧
      parsed.payload = seg.payload := by
  obtain ⟨bytes, serialized, -, parsed⟩ :=
    parse_serialize seg hpseudo ge le (by omega) into
  exact ⟨bytes, _, serialized, parsed, rfl, rfl⟩

/-- A segment with options and a payload of three bytes. -/
def withOptions : TCPSegment :=
  { header := { sport := 1000, dport := 80, seqno := ⟨7⟩, doff := 8, ack := true, psh := true }
    payload := [1, 2, 3] }

theorem segment_round_trip_withOptions :
    ∃ bytes parsed, withOptions.serialize 1000 = .ok bytes ∧
      ({} : TCPSegment).parse bytes.concatenate 1000 = (.noError, parsed) ∧
      parsed.header = { withOptions.header with cksum := parsed.header.cksum } ∧
      parsed.payload = [1, 2, 3] :=
  segment_round_trip withOptions {} (by decide) (by decide) (by decide) (by decide)

end TCPSegment

end Sponge
