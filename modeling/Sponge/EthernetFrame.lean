import Sponge.Parser

/-!
# Ethernet frames and ARP messages

Embedding of `libsponge/tcp_helpers/ethernet_header.{hh,cc}`,
`libsponge/tcp_helpers/ethernet_frame.{hh,cc}` and
`libsponge/tcp_helpers/arp_message.{hh,cc}`.

As with datagrams and segments, the frame's parser drops the result of the header's parser
and returns the error of the `NetParser`: a frame that is too short for a header is
accepted, with the header it had before.

Main results:

* `EthernetFrame.frame_codec` — a frame that is serialised and parsed is the frame with its
  payload in one buffer; bytes that are parsed and serialised are the bytes, if there are
  enough for a header.
* `ARPMessage.arp_codec` — an ARP message that is supported is read back as it was written,
  and one that is accepted is written as it was read.

Both converses rest on the same fact: any bytes that are long enough are those of some
header (`EthernetHeader.exists_serialize`) or of some message, supported or not
(`ARPMessage.exists_bytes`), so it is enough to know what `parse` makes of these.

### Reading a message halfway

`ARPMessage::parse` looks at the first five fields before it reads the others, and a message
that it does not support has these overwritten and the rest as before.  `withKind` says so.
No caller uses such a message, but the round trip is stated for a parser that starts from
any message, and so shows that nothing of it is left in what is accepted.

### Padding

A frame on the wire may be longer than what it carries.  `ARPMessage::parse` ignores what
follows the 28 bytes, so the message that is accepted is written as the first 28 of the
bytes it was read from, and not as all of them.
-/

namespace Sponge

/-- `EthernetAddress`, six bytes. -/
structure EthernetAddress where
  b0 : UInt8 := 0
  b1 : UInt8 := 0
  b2 : UInt8 := 0
  b3 : UInt8 := 0
  b4 : UInt8 := 0
  b5 : UInt8 := 0
  deriving Repr, DecidableEq

namespace EthernetAddress

/-- `ETHERNET_BROADCAST`. -/
def broadcast : EthernetAddress := ⟨0xff, 0xff, 0xff, 0xff, 0xff, 0xff⟩

/-- The loop that reads an address byte by byte. -/
def parse (p : NetParser) : EthernetAddress × NetParser :=
  let (b0, p) := p.u8
  let (b1, p) := p.u8
  let (b2, p) := p.u8
  let (b3, p) := p.u8
  let (b4, p) := p.u8
  let (b5, p) := p.u8
  (⟨b0, b1, b2, b3, b4, b5⟩, p)

/-- The loop that writes an address byte by byte. -/
def unparse (address : EthernetAddress) : List UInt8 :=
  NetUnparser.u8 address.b0 ++ NetUnparser.u8 address.b1 ++ NetUnparser.u8 address.b2
    ++ NetUnparser.u8 address.b3 ++ NetUnparser.u8 address.b4 ++ NetUnparser.u8 address.b5

@[simp] theorem length_unparse (address : EthernetAddress) : address.unparse.length = 6 := by
  simp [unparse]

@[simp] theorem parse_unparse (address : EthernetAddress) (rest : List UInt8) :
    parse ⟨address.unparse ++ rest, .noError⟩ = (address, ⟨rest, .noError⟩) := by
  simp only [parse, unparse, List.append_assoc, NetParser.u8_unparse]

/-- Any six bytes are an address. -/
theorem exists_unparse {b : List UInt8} (enough : 6 ≤ b.length) :
    ∃ address rest, b = unparse address ++ rest ∧ b.length = 6 + rest.length := by
  obtain ⟨b0, r0, rfl, h0⟩ := NetUnparser.exists_u8 (b := b) (by omega)
  obtain ⟨b1, r1, rfl, h1⟩ := NetUnparser.exists_u8 (b := r0) (by omega)
  obtain ⟨b2, r2, rfl, h2⟩ := NetUnparser.exists_u8 (b := r1) (by omega)
  obtain ⟨b3, r3, rfl, h3⟩ := NetUnparser.exists_u8 (b := r2) (by omega)
  obtain ⟨b4, r4, rfl, h4⟩ := NetUnparser.exists_u8 (b := r3) (by omega)
  obtain ⟨b5, r5, rfl, h5⟩ := NetUnparser.exists_u8 (b := r4) (by omega)
  refine ⟨⟨b0, b1, b2, b3, b4, b5⟩, r5, ?_, by omega⟩
  simp only [unparse, List.append_assoc]

end EthernetAddress

/-! ## Frames -/

/-- `EthernetHeader`, as it is initialised in a frame. -/
structure EthernetHeader where
  dst : EthernetAddress := {}
  src : EthernetAddress := {}
  type : UInt16 := 0
  deriving Repr, DecidableEq

namespace EthernetHeader

/-- `LENGTH`. -/
def length : ℕ := 14

/-- `TYPE_IPv4`. -/
def typeIPv4 : UInt16 := 0x800

/-- `TYPE_ARP`. -/
def typeARP : UInt16 := 0x806

theorem typeIPv4_ne_typeARP : typeIPv4 ≠ typeARP := by decide

/-- `parse`: the result, the header and the parser afterwards. -/
def parse (h : EthernetHeader) (p : NetParser) : ParseResult × EthernetHeader × NetParser :=
  if p.buffer.length < length then (.packetTooShort, h, p)
  else
    let (dst, p) := EthernetAddress.parse p
    let (src, p) := EthernetAddress.parse p
    let (type, p) := p.u16
    (p.error, ⟨dst, src, type⟩, p)

/-- `serialize`. -/
def serialize (h : EthernetHeader) : List UInt8 :=
  h.dst.unparse ++ h.src.unparse ++ NetUnparser.u16 h.type

theorem parse_serialize (h fresh : EthernetHeader) (rest : List UInt8) :
    fresh.parse ⟨h.serialize ++ rest, .noError⟩ = (.noError, h, ⟨rest, .noError⟩) := by
  have size : ¬(h.serialize ++ rest).length < length := by
    simp only [serialize, length, List.length_append, EthernetAddress.length_unparse,
      NetUnparser.length_u16]
    omega
  rw [parse, if_neg size]
  simp only [serialize, List.append_assoc, EthernetAddress.parse_unparse, NetParser.u16_unparse]

/-- Any fourteen bytes are a header. -/
theorem exists_serialize {b : List UInt8} (enough : length ≤ b.length) :
    ∃ h rest, b = serialize h ++ rest := by
  have enough : 14 ≤ b.length := enough
  obtain ⟨dst, r1, rfl, h1⟩ := EthernetAddress.exists_unparse (b := b) (by omega)
  obtain ⟨src, r2, rfl, h2⟩ := EthernetAddress.exists_unparse (b := r1) (by omega)
  obtain ⟨type, r3, rfl, -⟩ := NetUnparser.exists_u16 (b := r2) (by omega)
  refine ⟨⟨dst, src, type⟩, r3, ?_⟩
  simp only [serialize, List.append_assoc]

end EthernetHeader

/-- `EthernetFrame`. -/
structure EthernetFrame where
  header : EthernetHeader := {}
  payload : BufferList := []
  deriving Repr, DecidableEq

namespace EthernetFrame

/-- `parse`: the result and the frame afterwards.  The header's result is dropped. -/
def parse (f : EthernetFrame) (buffer : List UInt8) : ParseResult × EthernetFrame :=
  let (_, header, p) := f.header.parse ⟨buffer, .noError⟩
  (p.error, ⟨header, [p.buffer]⟩)

/-- `serialize`: the header, before the buffers of the payload. -/
def serialize (f : EthernetFrame) : BufferList := f.header.serialize :: f.payload

/-- **Serialising and parsing** gives the frame back, with its payload in one buffer. -/
theorem parse_serialize (f fresh : EthernetFrame) :
    fresh.parse f.serialize.concatenate = (.noError, ⟨f.header, [f.payload.concatenate]⟩) := by
  have hbytes : f.serialize.concatenate = f.header.serialize ++ f.payload.concatenate := rfl
  rw [parse, hbytes, EthernetHeader.parse_serialize]

/-- A frame too short for a header is accepted as it is, beside the header that was there. -/
theorem parse_short (fresh : EthernetFrame) {b : List UInt8}
    (short : b.length < EthernetHeader.length) :
    fresh.parse b = (.noError, ⟨fresh.header, [b]⟩) := by
  rw [parse, EthernetHeader.parse, if_pos short]

/-- **Parsing and serialising** gives the bytes back, if there are enough for a header. -/
theorem parse_long (fresh : EthernetFrame) {b : List UInt8}
    (enough : EthernetHeader.length ≤ b.length) :
    (fresh.parse b).1 = .noError ∧ (fresh.parse b).2.serialize.concatenate = b := by
  obtain ⟨h, rest, rfl⟩ := EthernetHeader.exists_serialize enough
  rw [parse, EthernetHeader.parse_serialize]
  refine ⟨rfl, ?_⟩
  show h.serialize ++ [rest].flatten = h.serialize ++ rest
  rw [List.flatten_singleton]

/-- **The Ethernet frame codec.**  Parsing `b` succeeds exactly if there are enough bytes for a
header, and serialising gives `b` back then: this holds of the bytes that *are* enough, and
fails for all the others, which are accepted too.  Every frame survives serialising and
parsing. -/
theorem frame_codec (fresh : EthernetFrame) :
    (∀ b, ((((fresh.parse b).1 = .noError ↔ 14 ≤ b.length) ∧
        ((fresh.parse b).1 = .noError → (fresh.parse b).2.serialize.concatenate = b)) ↔
      14 ≤ b.length)) ∧
    ∀ f : EthernetFrame, ∃ f' : EthernetFrame,
      fresh.parse f.serialize.concatenate = (.noError, f') ∧ f'.header.dst = f.header.dst ∧
        f'.header.src = f.header.src ∧ f'.header.type = f.header.type ∧
        f'.payload.concatenate = f.payload.concatenate := by
  refine ⟨fun b => ⟨fun claimed => ?_, fun enough => ?_⟩, fun f => ?_⟩
  · by_contra short
    have accepted := parse_short fresh (Nat.lt_of_not_le short)
    exact short (claimed.1.mp (congrArg Prod.fst accepted))
  · obtain ⟨accepted, written⟩ := parse_long fresh enough
    exact ⟨⟨fun _ => enough, fun _ => accepted⟩, fun _ => written⟩
  · refine ⟨_, parse_serialize f fresh, rfl, rfl, rfl, ?_⟩
    exact List.flatten_singleton

/-- Five bytes are taken for a frame of nineteen. -/
theorem runt_accepted :
    (({} : EthernetFrame).parse [1, 2, 3, 4, 5]).1 = .noError ∧
      (({} : EthernetFrame).parse [1, 2, 3, 4, 5]).2.serialize.concatenate
        = List.replicate 14 0 ++ [1, 2, 3, 4, 5] := by
  decide +kernel

end EthernetFrame

/-! ## ARP messages -/

/-- `ARPMessage`, with the source's defaults. -/
structure ARPMessage where
  /-- `TYPE_ETHERNET`. -/
  hardwareType : UInt16 := 1
  protocolType : UInt16 := EthernetHeader.typeIPv4
  hardwareAddressSize : UInt8 := 6
  protocolAddressSize : UInt8 := 4
  opcode : UInt16 := 0
  senderEthernetAddress : EthernetAddress := {}
  senderIpAddress : UInt32 := 0
  targetEthernetAddress : EthernetAddress := {}
  targetIpAddress : UInt32 := 0
  deriving Repr, DecidableEq

namespace ARPMessage

/-- `LENGTH`. -/
def length : ℕ := 28

/-- `TYPE_ETHERNET`. -/
def typeEthernet : UInt16 := 1

/-- `OPCODE_REQUEST`. -/
def opcodeRequest : UInt16 := 1

/-- `OPCODE_REPLY`. -/
def opcodeReply : UInt16 := 2

/-- `supported`: a request or a reply of IPv4 over Ethernet. -/
def supported (m : ARPMessage) : Bool :=
  m.hardwareType == typeEthernet && m.protocolType == EthernetHeader.typeIPv4
    && m.hardwareAddressSize == 6 && m.protocolAddressSize == 4
    && (m.opcode == opcodeRequest || m.opcode == opcodeReply)

/-- `parse`: the result and the message afterwards. -/
def parse (m : ARPMessage) (buffer : List UInt8) : ParseResult × ARPMessage :=
  let p : NetParser := ⟨buffer, .noError⟩
  if p.buffer.length < length then (.packetTooShort, m)
  else
    let (hardwareType, p) := p.u16
    let (protocolType, p) := p.u16
    let (hardwareAddressSize, p) := p.u8
    let (protocolAddressSize, p) := p.u8
    let (opcode, p) := p.u16
    let m := { m with
      hardwareType := hardwareType, protocolType := protocolType,
      hardwareAddressSize := hardwareAddressSize, protocolAddressSize := protocolAddressSize,
      opcode := opcode }
    if !m.supported then (.unsupported, m)
    else
      let (senderEthernetAddress, p) := EthernetAddress.parse p
      let (senderIpAddress, p) := p.u32
      let (targetEthernetAddress, p) := EthernetAddress.parse p
      let (targetIpAddress, p) := p.u32
      (p.error, { m with
        senderEthernetAddress := senderEthernetAddress, senderIpAddress := senderIpAddress,
        targetEthernetAddress := targetEthernetAddress, targetIpAddress := targetIpAddress })

/-- A message that is accepted is a supported one. -/
theorem supported_of_parse {m msg : ARPMessage} {buffer : List UInt8}
    (h : m.parse buffer = (.noError, msg)) : msg.supported = true := by
  unfold parse at h
  simp only at h
  split at h
  · cases h
  split at h
  · cases h
  next accepted =>
  rw [Bool.not_eq_true', Bool.not_eq_false] at accepted
  rw [← (Prod.mk.inj h).2]
  simp only [supported] at accepted ⊢
  exact accepted

/-- The bytes that `serialize` writes. -/
def bytes (m : ARPMessage) : List UInt8 :=
  NetUnparser.u16 m.hardwareType ++ NetUnparser.u16 m.protocolType
    ++ NetUnparser.u8 m.hardwareAddressSize ++ NetUnparser.u8 m.protocolAddressSize
    ++ NetUnparser.u16 m.opcode ++ m.senderEthernetAddress.unparse
    ++ NetUnparser.u32 m.senderIpAddress ++ m.targetEthernetAddress.unparse
    ++ NetUnparser.u32 m.targetIpAddress

/-- `serialize`, which refuses what it does not support. -/
def serialize (m : ARPMessage) : Except WireFault (List UInt8) :=
  if !m.supported then .error .unsupportedARP else .ok m.bytes

theorem serialize_eq {m : ARPMessage} (h : m.supported = true) : m.serialize = .ok m.bytes := by
  rw [serialize, h]
  rfl

theorem serialize_error {m : ARPMessage} (h : m.supported = false) :
    m.serialize = .error .unsupportedARP := by
  rw [serialize, h]
  rfl

@[simp] theorem length_bytes (m : ARPMessage) : m.bytes.length = length := by
  simp [bytes, length]

/-- The fields that `parse` reads before it looks whether it supports them. -/
def withKind (fresh m : ARPMessage) : ARPMessage :=
  { fresh with
    hardwareType := m.hardwareType, protocolType := m.protocolType,
    hardwareAddressSize := m.hardwareAddressSize, protocolAddressSize := m.protocolAddressSize,
    opcode := m.opcode }

/-- **Parsing what was written**, whatever follows it: a supported message is read back, and
any other one is refused halfway. -/
theorem parse_bytes_append (m fresh : ARPMessage) (rest : List UInt8) :
    fresh.parse (m.bytes ++ rest)
      = if m.supported then (.noError, m) else (.unsupported, fresh.withKind m) := by
  have size : ¬(m.bytes ++ rest).length < length := by
    rw [List.length_append, length_bytes]
    omega
  have kind : (fresh.withKind m).supported = m.supported := rfl
  rw [withKind] at kind
  rw [parse, if_neg size, withKind]
  simp only [bytes, List.append_assoc, NetParser.u8_unparse, NetParser.u16_unparse,
    NetParser.u32_unparse, EthernetAddress.parse_unparse, kind]
  cases m.supported <;> rfl

/-- **Serialising and parsing** gives a supported message back. -/
theorem parse_bytes {m : ARPMessage} (h : m.supported = true) (fresh : ARPMessage) :
    fresh.parse m.bytes = (.noError, m) := by
  have read := parse_bytes_append m fresh []
  rwa [List.append_nil, if_pos h] at read

/-- Any 28 bytes are a message, supported or not. -/
theorem exists_bytes {b : List UInt8} (enough : length ≤ b.length) :
    ∃ m rest, b = bytes m ++ rest := by
  have enough : 28 ≤ b.length := enough
  obtain ⟨hardwareType, r1, rfl, h1⟩ := NetUnparser.exists_u16 (b := b) (by omega)
  obtain ⟨protocolType, r2, rfl, h2⟩ := NetUnparser.exists_u16 (b := r1) (by omega)
  obtain ⟨hardwareAddressSize, r3, rfl, h3⟩ := NetUnparser.exists_u8 (b := r2) (by omega)
  obtain ⟨protocolAddressSize, r4, rfl, h4⟩ := NetUnparser.exists_u8 (b := r3) (by omega)
  obtain ⟨opcode, r5, rfl, h5⟩ := NetUnparser.exists_u16 (b := r4) (by omega)
  obtain ⟨sender, r6, rfl, h6⟩ := EthernetAddress.exists_unparse (b := r5) (by omega)
  obtain ⟨senderIp, r7, rfl, h7⟩ := NetUnparser.exists_u32 (b := r6) (by omega)
  obtain ⟨target, r8, rfl, h8⟩ := EthernetAddress.exists_unparse (b := r7) (by omega)
  obtain ⟨targetIp, r9, rfl, -⟩ := NetUnparser.exists_u32 (b := r8) (by omega)
  refine ⟨⟨hardwareType, protocolType, hardwareAddressSize, protocolAddressSize, opcode,
    sender, senderIp, target, targetIp⟩, r9, ?_⟩
  simp only [bytes, List.append_assoc]

/-- The first eight bytes of a message are its kind. -/
theorem take_bytes (m : ARPMessage) (rest : List UInt8) :
    (m.bytes ++ rest).take 8 = NetUnparser.u16 m.hardwareType ++ (NetUnparser.u16 m.protocolType
      ++ (NetUnparser.u8 m.hardwareAddressSize ++ (NetUnparser.u8 m.protocolAddressSize
        ++ (NetUnparser.u16 m.opcode ++ [])))) := by
  simp only [bytes, List.append_assoc, List.append_nil]
  rw [← List.append_assoc, ← List.append_assoc, ← List.append_assoc, ← List.append_assoc]
  refine (List.take_left' ?_).trans ?_
  · simp
  · simp only [List.append_assoc]

/-- **What is supported** can be seen from the first eight bytes. -/
theorem supported_iff_take (m : ARPMessage) (rest : List UInt8) :
    m.supported = true ↔ (m.bytes ++ rest).take 8 = [0, 1, 8, 0, 6, 4, 0, 1] ∨
      (m.bytes ++ rest).take 8 = [0, 1, 8, 0, 6, 4, 0, 2] := by
  have request : ([0, 1, 8, 0, 6, 4, 0, 1] : List UInt8) = NetUnparser.u16 typeEthernet
      ++ (NetUnparser.u16 EthernetHeader.typeIPv4 ++ (NetUnparser.u8 6 ++ (NetUnparser.u8 4
        ++ (NetUnparser.u16 opcodeRequest ++ [])))) := by decide
  have reply : ([0, 1, 8, 0, 6, 4, 0, 2] : List UInt8) = NetUnparser.u16 typeEthernet
      ++ (NetUnparser.u16 EthernetHeader.typeIPv4 ++ (NetUnparser.u8 6 ++ (NetUnparser.u8 4
        ++ (NetUnparser.u16 opcodeReply ++ [])))) := by decide
  rw [take_bytes, request, reply]
  simp only [NetUnparser.u16_append_inj, NetUnparser.u8_append_inj, and_true, supported,
    Bool.and_eq_true, Bool.or_eq_true, beq_iff_eq, and_assoc, ← and_or_left]

/-- **What is accepted**: at least 28 bytes, of which the first eight name a request or a reply
of IPv4 over Ethernet; the message is written as it was read. -/
theorem parse_noError_iff (fresh : ARPMessage) (b : List UInt8) :
    ((fresh.parse b).1 = .noError ↔ 28 ≤ b.length ∧
      (b.take 8 = [0, 1, 8, 0, 6, 4, 0, 1] ∨ b.take 8 = [0, 1, 8, 0, 6, 4, 0, 2])) ∧
    ((fresh.parse b).1 = .noError → (fresh.parse b).2.serialize = .ok (b.take 28)) := by
  by_cases enough : length ≤ b.length
  · obtain ⟨m, rest, rfl⟩ := exists_bytes enough
    have size : 28 ≤ (m.bytes ++ rest).length := enough
    have cut : (m.bytes ++ rest).take 28 = m.bytes := List.take_left' (length_bytes m)
    rw [parse_bytes_append, cut, ← supported_iff_take]
    cases known : m.supported with
    | false => simp
    | true => exact ⟨⟨fun _ => ⟨size, rfl⟩, fun _ => rfl⟩, fun _ => serialize_eq known⟩
  · have short : b.length < length := Nat.lt_of_not_le enough
    have refused : fresh.parse b = (.packetTooShort, fresh) := by rw [parse, if_pos short]
    have few : ¬28 ≤ b.length := enough
    rw [refused]
    simp [few]

/-- **The ARP codec.**  A supported message is read back as it was written; what is accepted
is what names a request or a reply of IPv4 over Ethernet, and it is written as it was read;
a message that is not supported is not written at all. -/
theorem arp_codec (fresh : ARPMessage) :
    (∀ m : ARPMessage, m.supported = true →
      ∃ bytes, m.serialize = .ok bytes ∧ fresh.parse bytes = (.noError, m)) ∧
    (∀ b, ((fresh.parse b).1 = .noError ↔ 28 ≤ b.length ∧
        (b.take 8 = [0, 1, 8, 0, 6, 4, 0, 1] ∨ b.take 8 = [0, 1, 8, 0, 6, 4, 0, 2])) ∧
      ((fresh.parse b).1 = .noError → (fresh.parse b).2.serialize = .ok (b.take 28))) ∧
    ∀ m : ARPMessage, (∃ fault, m.serialize = .error fault) ↔ m.supported = false := by
  refine ⟨fun m known => ⟨m.bytes, serialize_eq known, parse_bytes known fresh⟩,
    parse_noError_iff fresh, fun m => ⟨fun ⟨fault, thrown⟩ => ?_, fun unknown => ?_⟩⟩
  · rw [← Bool.not_eq_true]
    intro known
    rw [serialize_eq known] at thrown
    cases thrown
  · exact ⟨_, serialize_error unknown⟩

/-- A reply with two bytes of padding. -/
theorem arp_codec_padded :
    let b : List UInt8 := [0, 1, 8, 0, 6, 4, 0, 2] ++ List.replicate 22 7
    (({} : ARPMessage).parse b).1 = .noError ∧
      (({} : ARPMessage).parse b).2.serialize = .ok (b.take 28) := by
  intro b
  obtain ⟨accepted_iff, written⟩ := (arp_codec {}).2.1 b
  have accepted := accepted_iff.mpr ⟨by decide, Or.inr (by decide)⟩
  exact ⟨accepted, written accepted⟩

end ARPMessage

end Sponge
