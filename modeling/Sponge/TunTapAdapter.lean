import Sponge.FdAdapter
import Sponge.NetworkInterface

/-!
# Adapters for TUN and TAP devices

Embedding of `libsponge/tcp_helpers/tuntap_adapter.{hh,cc}`.  A TUN device carries IPv4
datagrams; a TAP device carries Ethernet frames, and the adapter for it has a network
interface of its own, which may keep a datagram back until it knows where to send it.

Main results:

* `TCPOverIPv4OverTunFdAdapter.relay`, `TCPOverIPv4OverEthernetAdapter.relay` — what these adapters
  put on their device can only be read as a segment they were given.

### Packet devices

A read of such a device returns one packet, and cuts it off if the buffer of
`FileDescriptor::read` is too small for it.  `packet` is what is left of it.  What the
adapters write is far shorter than the buffer (`IPv4Datagram.length_serialize`), so of their
own packets nothing is ever cut off; of other packets nothing is known, and nothing is
asked.

### Reading bytes in one way only

`Delivers` composes the parsers of the layers, and a parser is a function, so bytes can be
read as one segment at most (`Delivers.unique`).  For what an adapter has written this is
the segment it was given, by the round trips of `IPv4Datagram` and `TCPOverIPv4`.

### What an interface holds back

Over Ethernet a datagram may wait until the address of the next hop is known, and goes out
with a later `read`.  `Holds` is the set of segments that may still come out: those in
frames on the outbound queue, and those in datagrams on the pending list.  Every call of the
interface shrinks this set, or adds the segment it was given; ARP messages are in frames of
another type and never deliver anything (`IsARP.not_delivers`).

The interface's table of addresses plays no part.  To which address a frame goes decides who
reads it, and not as what.
-/

namespace Sponge

open Runs

/-! ## Datagrams -/

namespace IPv4Datagram

/-- The bytes are a datagram with this segment. -/
def Delivers (bytes : List UInt8) (seg : TCPSegment) : Prop :=
  ∃ d, ({} : IPv4Datagram).parse bytes = (.noError, d) ∧ TCPOverIPv4Adapter.Carries d seg

/-- They are one datagram, with one segment. -/
theorem Delivers.unique {bytes : List UInt8} {seg seg' : TCPSegment} (h : Delivers bytes seg)
    (h' : Delivers bytes seg') : seg = seg' := by
  obtain ⟨d, hparse, -, payload, hpayload, hseg⟩ := h
  obtain ⟨d', hparse', -, payload', hpayload', hseg'⟩ := h'
  cases hparse.symm.trans hparse'
  cases hpayload.symm.trans hpayload'
  cases hseg.symm.trans hseg'
  rfl

/-- What is serialised is much shorter than the buffer of a read. -/
theorem length_serialize {d : IPv4Datagram} {bytes : BufferList} (h : d.serialize = .ok bytes) :
    bytes.concatenate.length ≤ 70000 := by
  have serializable := serializable_of_serialize h
  obtain rfl := Except.ok.inj ((serialize_eq serializable).symm.trans h)
  have hheader : d.header.checksummed.bytes.length = 4 * d.header.hlen.toNat :=
    IPv4Header.length_bytes _
  have hpayload : d.payload.concatenate.length = d.header.payloadLength.toNat := by
    rw [← BufferList.size_eq]
    exact serializable.size
  have hhlen := d.header.hlen.toNat_lt
  have hlen := d.header.payloadLength.toNat_lt
  show (d.header.checksummed.bytes ++ d.payload.concatenate).length ≤ 70000
  rw [List.length_append, hheader, hpayload]
  omega

end IPv4Datagram

open IPv4Datagram (Delivers)

namespace TCPOverIPv4Adapter

/-- A segment that is wrapped and put into bytes can be read as this segment only. -/
theorem delivers_wrap (a : TCPOverIPv4Adapter) {seg : TCPSegment} (fits : seg.Fits) :
    ∃ stamped d bytes, a.wrapTcpInIp seg = .ok (stamped, d) ∧ d.serialize = .ok bytes ∧
      ∀ seg', Delivers bytes.concatenate seg' → seg.SameMessage seg' := by
  have size := fits.size
  obtain ⟨payload, hpayload, hsize, hsegment⟩ := (a.withPorts seg).parse_serialize
    (IPv4Datagram.pseudoCksum_lt (a.headerFor (a.withPorts seg))) fits.doff_ge fits.doff_le
    (show 4 * seg.header.doff.toNat + seg.payload.length ≤ 65535 by omega) {}
  have wrapped : a.wrapTcpInIp seg
      = .ok (a.withPorts seg, ⟨a.headerFor (a.withPorts seg), payload⟩) := by
    simp only [wrapTcpInIp, hpayload, bind, Except.bind]
  have sendable : IPv4Datagram.Sendable ⟨a.headerFor (a.withPorts seg), payload⟩ := by
    refine ⟨rfl, le_refl 5, show 5 ≤ 15 by decide, show 0 < 2 ^ 13 by decide, ?_⟩
    show (UInt16.ofNat (5 * 4 + seg.header.doff.toNat * 4 + seg.payload.length)).toNat
      = 4 * 5 + payload.size
    rw [UInt16.toNat_ofNat', BufferList.size_eq, hsize, Nat.mod_eq_of_lt (by omega)]
    show _ = 4 * 5 + (4 * seg.header.doff.toNat + seg.payload.length)
    omega
  obtain ⟨bytes, hbytes, -, hparsed⟩ := IPv4Datagram.parse_serialize sendable {}
  refine ⟨_, _, bytes, wrapped, hbytes, fun seg' delivers => ?_⟩
  have carried : Delivers bytes.concatenate ⟨(a.withPorts seg).checksummed
      (a.headerFor (a.withPorts seg)).pseudoCksum, (a.withPorts seg).payload⟩ :=
    ⟨_, hparsed, rfl, payload.concatenate, rfl, by
      rw [IPv4Header.pseudoCksum_checksummed]
      exact hsegment⟩
  cases carried.unique delivers
  exact ⟨rfl, _, _, _, rfl⟩

/-- What is let through is what the datagram carries. -/
theorem carries_of_unwrap {a a' : TCPOverIPv4Adapter} {d : IPv4Datagram} {seg : TCPSegment}
    (h : a.unwrapTcpInIp d = .ok (some seg, a')) : Carries d seg := by
  generalize hout : some seg = out at h
  cases verdict_of_unwrap h with
  | rejected => cases hout
  | opened _ opens =>
      cases hout
      exact opens.carries
  | passed _ fourTuple =>
      cases hout
      exact fourTuple.carries

end TCPOverIPv4Adapter

namespace FDWrapper

/-- `numeric_limits<size_t>::max()`, the default limit of `read`. -/
def noLimit : ℕ := 2 ^ 64 - 1

/-- What a packet device hands over of a packet: as much as there is room for. -/
def packet (bytes : List UInt8) : List UInt8 := bytes.take bufferSize

/-- A read of a packet device. -/
def readPacket (fd : FDWrapper) (bytes : List UInt8) : List UInt8 × FDWrapper :=
  (packet bytes, (if bytes.isEmpty then { fd with eof := true } else fd).registerRead)

/-- A packet that fits is handed over whole. -/
theorem packet_of_le {bytes : List UInt8} (small : bytes.length ≤ bufferSize) :
    packet bytes = bytes :=
  List.take_of_length_le small

/-- Nothing more than fits. -/
theorem length_packet_le (bytes : List UInt8) : (packet bytes).length ≤ bufferSize := by
  rw [packet, List.length_take]
  exact Nat.min_le_left _ _

/-- An empty packet, which `read` takes for the end of the file. -/
theorem packet_eq_nil {bytes : List UInt8} : packet bytes = [] ↔ bytes.isEmpty = true := by
  cases bytes with
  | nil => simp [packet]
  | cons b bytes =>
      rw [packet, show bufferSize = 1048575 + 1 from rfl, List.take_succ_cons]
      simp

/-- A read is counted, and closes nothing. -/
theorem readPacket_snd (fd : FDWrapper) (bytes : List UInt8) :
    (fd.readPacket bytes).2.readCount ≠ fd.readCount ∧
      (fd.readPacket bytes).2.closed = fd.closed := by
  unfold readPacket
  dsimp only
  split
  · exact ⟨registerRead_ne { fd with eof := true }, rfl⟩
  · exact ⟨registerRead_ne fd, rfl⟩

/-- This is what `read` does with the answer of such a device. -/
theorem read_packet (fd : FDWrapper) (bytes : List UInt8) :
    fd.read noLimit { returned := (packet bytes).length, errno := 0, data := packet bytes }
      = .ok (fd.readPacket bytes) := by
  have fits : (packet bytes).length ≤ min bufferSize noLimit :=
    le_min (length_packet_le bytes) ((length_packet_le bytes).trans (by decide +kernel))
  have read := @read_of_fits fd noLimit
    { returned := (packet bytes).length, errno := 0, data := packet bytes } rfl fits
  have hlimit : 0 < noLimit := by decide +kernel
  simp only [packet_eq_nil, hlimit, true_and] at read
  exact read

end FDWrapper

/-! ## TUN -/

/-- `TCPOverIPv4OverTunFdAdapter`. -/
structure TCPOverIPv4OverTunFdAdapter extends TCPOverIPv4Adapter where
  tun : FDWrapper := {}
  deriving Repr, DecidableEq

namespace TCPOverIPv4OverTunFdAdapter

/-- `read`, once the datagram has been parsed. -/
def receive (a : TCPOverIPv4OverTunFdAdapter) :
    ParseResult × IPv4Datagram →
      Except AdapterFault (Option TCPSegment × TCPOverIPv4OverTunFdAdapter)
  | (.noError, ipDgram) =>
      match a.unwrapTcpInIp ipDgram with
      | .error fault => .error (.wire fault)
      | .ok (seg, adapter) => .ok (seg, { adapter with tun := a.tun })
  | _ => .ok (none, a)

/-- `read`. -/
def read (a : TCPOverIPv4OverTunFdAdapter) (packet : List UInt8) :
    Except AdapterFault (Option TCPSegment × TCPOverIPv4OverTunFdAdapter) :=
  let (bytes, tun) := a.tun.readPacket packet
  { a with tun := tun }.receive (({} : IPv4Datagram).parse bytes)

/-- `write`: the adapter afterwards, and the packet. -/
def write (a : TCPOverIPv4OverTunFdAdapter) (seg : TCPSegment) :
    Except AdapterFault (TCPOverIPv4OverTunFdAdapter × List UInt8) :=
  match a.wrapTcpInIp seg with
  | .error fault => .error (.wire fault)
  | .ok (_, ipDgram) =>
      match ipDgram.serialize with
      | .error fault => .error (.wire fault)
      | .ok bytes => .ok ({ a with tun := a.tun.registerWrite }, bytes.concatenate)

instance : FdAdapter TCPOverIPv4OverTunFdAdapter (List UInt8) where
  fd a := a.tun
  config a := a.config
  setConfig a config := { a with config := config }
  setListening a listening := { a with listening := listening }
  read a d := (a.read d).map fun (seg, a) => (seg, a, [])
  write a seg := (a.write seg).map fun (a, d) => (a, [d])
  tick a _ := (a, [])
  bytes := FDWrapper.packet

/-- A segment that is returned is the one in the datagram. -/
theorem carries_of_receive {a a' : TCPOverIPv4OverTunFdAdapter}
    {parsed : ParseResult × IPv4Datagram} {seg : TCPSegment}
    (h : a.receive parsed = .ok (some seg, a')) :
    ∃ d, parsed = (.noError, d) ∧ TCPOverIPv4Adapter.Carries d seg := by
  obtain ⟨result, d⟩ := parsed
  cases result with
  | noError =>
      rcases hunwrap : a.unwrapTcpInIp d with fault | ⟨out, adapter⟩
      · simp only [receive, hunwrap] at h
        cases h
      · simp only [receive, hunwrap] at h
        cases h
        exact ⟨d, rfl, TCPOverIPv4Adapter.carries_of_unwrap hunwrap⟩
  | _ =>
      simp only [receive] at h
      cases h

/-- A packet that was written can be read as the segment only. -/
theorem delivers_of_write {a a' : TCPOverIPv4OverTunFdAdapter} {seg seg' : TCPSegment}
    (fits : seg.Fits) {d : List UInt8} (h : a.write seg = .ok (a', d))
    (delivers : Delivers (FDWrapper.packet d) seg') : seg.SameMessage seg' := by
  obtain ⟨stamped, ipDgram, bytes, hwrap, hbytes, same⟩ :=
    TCPOverIPv4Adapter.delivers_wrap a.toTCPOverIPv4Adapter fits
  simp only [write, hwrap, hbytes] at h
  cases h
  rw [FDWrapper.packet_of_le ((IPv4Datagram.length_serialize hbytes).trans (by decide))] at delivers
  exact same seg' delivers

/-- A TUN device keeps nothing back. -/
def relay : Relay TCPOverIPv4OverTunFdAdapter :=
  .direct Delivers
    (fun h => by
      obtain ⟨⟨out, a₁⟩, hread, hr⟩ := ok_of_map h
      cases hr
      refine ⟨rfl, fun seg hseg => ?_⟩
      cases hseg
      exact carries_of_receive hread)
    (fun fits h d hd seg' delivers => by
      obtain ⟨⟨a₁, d₁⟩, hwrite, hr⟩ := ok_of_map h
      cases hr
      cases List.mem_singleton.mp hd
      exact delivers_of_write fits hwrite delivers)
    fun _ _ => rfl

/-- The checks leave the device alone. -/
theorem receive_tun {a a' : TCPOverIPv4OverTunFdAdapter} {parsed : ParseResult × IPv4Datagram}
    {out : Option TCPSegment} (h : a.receive parsed = .ok (out, a')) : a'.tun = a.tun := by
  unfold receive at h
  split at h
  · split at h
    · cases h
    · cases h
      rfl
  · cases h
    rfl

/-- And the loss rates. -/
theorem receive_loss {a a' : TCPOverIPv4OverTunFdAdapter} {parsed : ParseResult × IPv4Datagram}
    {out : Option TCPSegment} (h : a.receive parsed = .ok (out, a')) (uplink : Bool) :
    a'.config.loss uplink = a.config.loss uplink := by
  unfold receive at h
  split at h
  · split at h
    · cases h
    · next unwrapped =>
      cases h
      rcases TCPOverIPv4Adapter.verdict_of_unwrap unwrapped with _ | _ | _ <;> rfl
  · cases h
    rfl

theorem configured : FdAdapter.Configured TCPOverIPv4OverTunFdAdapter where
  assigned _ _ := rfl
  setListening _ _ _ := rfl
  read := by
    intro a a' d out ds h uplink
    obtain ⟨⟨out, a₁⟩, hread, hr⟩ := ok_of_map h
    cases hr
    exact receive_loss hread uplink
  write := by
    intro a a' seg ds h uplink
    obtain ⟨⟨a₁, d⟩, hwrite, hr⟩ := ok_of_map h
    cases hr
    unfold write at hwrite
    split at hwrite
    · cases hwrite
    · split at hwrite
      · cases hwrite
      · cases hwrite
        rfl
  tick _ _ _ := rfl

theorem lawful : FdAdapter.Lawful TCPOverIPv4OverTunFdAdapter where
  counted := by
    intro a a' d out ds h
    obtain ⟨⟨out, a₁⟩, hread, hr⟩ := ok_of_map h
    cases hr
    have htun : a'.tun = (a.tun.readPacket d).2 := receive_tun hread
    show a'.tun.readCount ≠ _ ∧ a'.tun.closed = _
    rw [htun]
    exact a.tun.readPacket_snd d
  write := by
    intro a a' seg ds h
    obtain ⟨⟨a₁, d⟩, hwrite, hr⟩ := ok_of_map h
    cases hr
    unfold write at hwrite
    split at hwrite
    · cases hwrite
    · split at hwrite
      · cases hwrite
      · cases hwrite
        rfl
  tick _ _ := rfl

end TCPOverIPv4OverTunFdAdapter

/-! ## TAP -/

/-- `TCPOverIPv4OverEthernetAdapter`. -/
structure TCPOverIPv4OverEthernetAdapter extends TCPOverIPv4Adapter where
  tap : FDWrapper := {}
  interface : NetworkInterface
  nextHop : Address

namespace TCPOverIPv4OverEthernetAdapter

/-- The bytes of a frame. -/
def onTap (frame : EthernetFrame) : List UInt8 := frame.serialize.concatenate

/-- The constructor: the adapter, and the dummy frame that it puts on the device. -/
def new (tap : FDWrapper) (ethAddress : EthernetAddress) (ipAddress nextHop : Address) :
    TCPOverIPv4OverEthernetAdapter × List (List UInt8) :=
  ({ tap := tap.registerWrite
     interface := { ethernetAddress := ethAddress, ipAddress := ipAddress }
     nextHop := nextHop },
    [onTap {}])

/-- `send_pending`: the adapter afterwards, and the frames. -/
def sendPending (a : TCPOverIPv4OverEthernetAdapter) :
    TCPOverIPv4OverEthernetAdapter × List (List UInt8) :=
  ({ a with
      tap := a.interface.framesOut.foldl (fun tap _ => tap.registerWrite) a.tap
      interface := { a.interface with framesOut := [] } },
    a.interface.framesOut.map onTap)

/-- `read`, once the interface has looked at the frame. -/
def receive (a : TCPOverIPv4OverEthernetAdapter) (ipDgram : Option IPv4Datagram) :
    Except AdapterFault
      (Option TCPSegment × TCPOverIPv4OverEthernetAdapter × List (List UInt8)) :=
  let (a, frames) := a.sendPending
  match ipDgram with
  | none => .ok (none, a, frames)
  | some ipDgram =>
      match a.unwrapTcpInIp ipDgram with
      | .error fault => .error (.wire fault)
      | .ok (seg, adapter) =>
          .ok (seg, { a with toTCPOverIPv4Adapter := adapter }, frames)

/-- `read`. -/
def read (a : TCPOverIPv4OverEthernetAdapter) (packet : List UInt8) :
    Except AdapterFault
      (Option TCPSegment × TCPOverIPv4OverEthernetAdapter × List (List UInt8)) :=
  let (bytes, tap) := a.tap.readPacket packet
  let a := { a with tap := tap }
  match ({} : EthernetFrame).parse bytes with
  | (.noError, frame) =>
      match a.interface.recvFrame frame with
      | .error fault => .error (.wire fault)
      | .ok (ipDgram, interface) => { a with interface := interface }.receive ipDgram
  | _ => .ok (none, a, [])

/-- `write`. -/
def write (a : TCPOverIPv4OverEthernetAdapter) (seg : TCPSegment) :
    Except AdapterFault (TCPOverIPv4OverEthernetAdapter × List (List UInt8)) :=
  match a.wrapTcpInIp seg with
  | .error fault => .error (.wire fault)
  | .ok (_, ipDgram) =>
      match a.interface.sendDatagram ipDgram a.nextHop with
      | .error fault => .error (.wire fault)
      | .ok interface => .ok { a with interface := interface }.sendPending

/-- `tick`. -/
def tick (a : TCPOverIPv4OverEthernetAdapter) (ms : ℕ) :
    TCPOverIPv4OverEthernetAdapter × List (List UInt8) :=
  { a with interface := a.interface.tick ms }.sendPending

instance : FdAdapter TCPOverIPv4OverEthernetAdapter (List UInt8) where
  fd a := a.tap
  config a := a.config
  setConfig a config := { a with config := config }
  setListening a listening := { a with listening := listening }
  read := read
  write := write
  tick := tick
  bytes := FDWrapper.packet

end TCPOverIPv4OverEthernetAdapter

/-! ### What is held back -/

/-- The bytes are a frame with a datagram with this segment. -/
def EthernetFrame.Delivers (bytes : List UInt8) (seg : TCPSegment) : Prop :=
  ∃ frame, ({} : EthernetFrame).parse bytes = (.noError, frame) ∧
    frame.header.type = EthernetHeader.typeIPv4 ∧
    ∃ payload, frame.payload.toBuffer = .ok payload ∧ IPv4Datagram.Delivers payload seg

/-- A frame delivers what its payload delivers, if that is a datagram. -/
theorem EthernetFrame.delivers_serialize {f : EthernetFrame} {seg : TCPSegment} :
    Delivers f.serialize.concatenate seg ↔
      f.header.type = EthernetHeader.typeIPv4 ∧
        IPv4Datagram.Delivers f.payload.concatenate seg := by
  constructor
  · rintro ⟨frame, hparse, htype, payload, hpayload, delivers⟩
    cases (parse_serialize f {}).symm.trans hparse
    cases hpayload
    exact ⟨htype, delivers⟩
  · rintro ⟨htype, delivers⟩
    exact ⟨_, parse_serialize f {}, htype, _, rfl, delivers⟩

namespace NetworkInterface

open TCPOverIPv4OverEthernetAdapter (onTap)

/-- A datagram with this segment. -/
def Carrying (d : IPv4Datagram) (seg : TCPSegment) : Prop :=
  ∃ bytes, d.serialize = .ok bytes ∧ IPv4Datagram.Delivers bytes.concatenate seg

/-- The segment is in a frame that waits to be taken, or in a datagram that waits for an
address. -/
def Holds (ni : NetworkInterface) (seg : TCPSegment) : Prop :=
  (∃ f ∈ ni.framesOut, EthernetFrame.Delivers (FDWrapper.packet (onTap f)) seg) ∨
    ∃ e ∈ ni.pendingList, Carrying e.1 seg

variable {ni ni' : NetworkInterface} {seg : TCPSegment}

/-- The header of a frame takes fourteen bytes. -/
theorem length_onTap (f : EthernetFrame) :
    (onTap f).length = 14 + f.payload.concatenate.length := by
  show (f.header.serialize ++ f.payload.concatenate).length = _
  rw [List.length_append]
  simp [EthernetHeader.serialize, NetUnparser.length_u16]

/-- The frame of an ARP message. -/
def IsARP (f : EthernetFrame) : Prop :=
  f.header.type = EthernetHeader.typeARP ∧ ∃ msg : ARPMessage, msg.serialize = .ok f.payload.concatenate

/-- A request or a reply delivers nothing. -/
theorem IsARP.not_delivers {f : EthernetFrame} (h : IsARP f) :
    ¬EthernetFrame.Delivers (FDWrapper.packet (onTap f)) seg := by
  obtain ⟨arp, msg, hmsg⟩ := h
  have small : (onTap f).length ≤ FDWrapper.bufferSize := by
    rw [ARPMessage.serialize] at hmsg
    split_ifs at hmsg
    rw [length_onTap, ← Except.ok.inj hmsg, ARPMessage.length_bytes]
    decide
  rw [FDWrapper.packet_of_le small, onTap, EthernetFrame.delivers_serialize, arp]
  exact fun h => EthernetHeader.typeIPv4_ne_typeARP h.1.symm

/-- The frame of a datagram delivers what the datagram carries. -/
theorem carrying_of_frame {d : IPv4Datagram} {bytes : BufferList} {header : EthernetHeader}
    (hbytes : d.serialize = .ok bytes)
    (delivers : EthernetFrame.Delivers (FDWrapper.packet (onTap ⟨header, bytes⟩)) seg) :
    Carrying d seg := by
  have small : (onTap ⟨header, bytes⟩).length ≤ FDWrapper.bufferSize := by
    have hlength := IPv4Datagram.length_serialize hbytes
    rw [length_onTap]
    exact (Nat.add_le_add_left hlength 14).trans (by decide)
  rw [FDWrapper.packet_of_le small, onTap, EthernetFrame.delivers_serialize] at delivers
  exact ⟨bytes, hbytes, delivers.2⟩

/-- **A datagram that is sent**, taken apart: it goes out in a frame, or is kept, perhaps with a
request. -/
theorem sendDatagram_cases {d : IPv4Datagram} {hop : Address}
    (h : ni.sendDatagram d hop = .ok ni') :
    (ni'.pendingList = ni.pendingList ∧ ∃ header bytes, d.serialize = .ok bytes ∧
      ni'.framesOut = ni.framesOut ++ [⟨header, bytes⟩]) ∨
    (ni'.pendingList = ni.pendingList ++ [(d, hop)] ∧ ∃ requests,
      ni'.framesOut = ni.framesOut ++ requests ∧ ∀ f ∈ requests, IsARP f) := by
  unfold sendDatagram at h
  simp only at h
  cases hmap : ni.mapping hop.ipv4Numeric with
  | none =>
      right
      simp only [hmap] at h
      split_ifs at h
      · cases h
        exact ⟨rfl, [], (List.append_nil _).symm, fun f hf => absurd hf List.not_mem_nil⟩
      · rcases hserialize : ARPMessage.serialize _ with fault | payload
        · rw [hserialize] at h
          cases h
        · rw [hserialize] at h
          cases h
          refine ⟨rfl, _, rfl, fun f hf => ?_⟩
          rw [List.mem_singleton.mp hf]
          refine ⟨rfl, _, hserialize.trans ?_⟩
          rw [BufferList.concatenate, List.flatten_singleton]
  | some entry =>
      left
      simp only [hmap] at h
      rcases hserialize : d.serialize with fault | payload
      · rw [hserialize] at h
        cases h
      · rw [hserialize] at h
        cases h
        exact ⟨rfl, _, payload, rfl, rfl⟩

/-- What is held after more frames and more datagrams was held before or is in one of these. -/
theorem Holds.cases_append {frames : List EthernetFrame} {pending : List (IPv4Datagram × Address)}
    (hframes : ni'.framesOut = ni.framesOut ++ frames)
    (hpending : ni'.pendingList = ni.pendingList ++ pending) (h : ni'.Holds seg) :
    ni.Holds seg ∨
      (∃ f ∈ frames, EthernetFrame.Delivers (FDWrapper.packet (onTap f)) seg) ∨
      ∃ e ∈ pending, Carrying e.1 seg := by
  rcases h with ⟨f, hf, delivers⟩ | ⟨e, he, carrying⟩
  · rw [hframes] at hf
    rcases List.mem_append.mp hf with hf | hf
    · exact .inl (.inl ⟨f, hf, delivers⟩)
    · exact .inr (.inl ⟨f, hf, delivers⟩)
  · rw [hpending] at he
    rcases List.mem_append.mp he with he | he
    · exact .inl (.inr ⟨e, he, carrying⟩)
    · exact .inr (.inr ⟨e, he, carrying⟩)

/-- **Sending a datagram** adds what it carries at most. -/
theorem Holds.of_sendDatagram {d : IPv4Datagram} {hop : Address}
    (h : ni.sendDatagram d hop = .ok ni') (holds : ni'.Holds seg) :
    ni.Holds seg ∨ Carrying d seg := by
  rcases sendDatagram_cases h with ⟨hpending, header, bytes, hbytes, hframes⟩ |
    ⟨hpending, requests, hframes, hARP⟩
  · rcases holds.cases_append hframes (hpending.trans (List.append_nil _).symm) with
      held | ⟨f, hf, delivers⟩ | ⟨e, he, -⟩
    · exact .inl held
    · cases List.mem_singleton.mp hf
      exact .inr (carrying_of_frame hbytes delivers)
    · exact absurd he List.not_mem_nil
  · rcases holds.cases_append hframes hpending with held | ⟨f, hf, delivers⟩ | ⟨e, he, carrying⟩
    · exact .inl held
    · exact absurd delivers (hARP f hf).not_delivers
    · cases List.mem_singleton.mp he
      exact .inr carrying

/-- Sending several, by induction over the list. -/
theorem Holds.of_sendAll {list : List (IPv4Datagram × Address)}
    (h : list.foldlM (fun ni e => ni.sendDatagram e.1 e.2) ni = .ok ni') (holds : ni'.Holds seg) :
    ni.Holds seg ∨ ∃ e ∈ list, Carrying e.1 seg := by
  induction list generalizing ni with
  | nil =>
      cases h
      exact .inl holds
  | cons e list ih =>
      rw [List.foldlM_cons] at h
      rcases hsend : ni.sendDatagram e.1 e.2 with fault | ni₁
      · rw [hsend] at h
        cases h
      · rw [hsend] at h
        rcases ih h with held | ⟨e', he', carrying⟩
        · rcases held.of_sendDatagram hsend with held | carrying
          · exact .inl held
          · exact .inr ⟨e, List.mem_cons_self, carrying⟩
        · exact .inr ⟨e', List.mem_cons_of_mem _ he', carrying⟩

/-- **An ARP message** adds nothing: a reply moves datagrams from one list to the other. -/
theorem Holds.of_recvARP {msg : ARPMessage} (h : ni.recvARP msg = .ok ni')
    (holds : ni'.Holds seg) : ni.Holds seg := by
  unfold recvARP at h
  simp only at h
  split_ifs at h
  · -- what waited for the address is sent
    rcases holds.of_sendAll h with (⟨f, hf, delivers⟩ | ⟨e, he, carrying⟩) | ⟨e, he, carrying⟩
    · exact .inl ⟨f, hf, delivers⟩
    · exact .inr ⟨e, (List.mem_filter.mp he).1, carrying⟩
    · exact .inr ⟨e, (List.mem_filter.mp he).1, carrying⟩
  · rw [answer] at h
    split_ifs at h
    · cases h
      exact holds
    · rcases hserialize : ARPMessage.serialize _ with fault | payload
      · rw [hserialize] at h
        cases h
      · rw [hserialize] at h
        cases h
        set reply : EthernetFrame :=
          ⟨⟨msg.senderEthernetAddress, (ni.learn msg).ethernetAddress, EthernetHeader.typeARP⟩,
            [payload]⟩
        have hARP : IsARP reply :=
          ⟨rfl, _, hserialize.trans (by rw [BufferList.concatenate, List.flatten_singleton])⟩
        have hframes : ((ni.learn msg).push reply).framesOut = ni.framesOut ++ [reply] := rfl
        have hpending : ((ni.learn msg).push reply).pendingList = ni.pendingList ++ [] :=
          (List.append_nil _).symm
        rcases holds.cases_append hframes hpending with held | ⟨f, hf, delivers⟩ | ⟨e, he, -⟩
        · exact held
        · cases List.mem_singleton.mp hf
          exact absurd delivers hARP.not_delivers
        · exact absurd he List.not_mem_nil
  · cases h
    exact holds

/-- **A frame that is received**, taken apart: a datagram that is returned was in it, and what is
held afterwards was held before. -/
theorem recvFrame_cases {frame : EthernetFrame} {out : Option IPv4Datagram}
    (h : ni.recvFrame frame = .ok (out, ni')) :
    (∀ d, out = some d → frame.header.type = EthernetHeader.typeIPv4 ∧
      ∃ payload, frame.payload.toBuffer = .ok payload ∧
        ({} : IPv4Datagram).parse payload = (.noError, d)) ∧
    ∀ seg, ni'.Holds seg → ni.Holds seg := by
  unfold recvFrame at h
  split_ifs at h with hdst hARP hIPv4
  · cases h
    exact ⟨fun d hd => (nomatch hd), fun seg => id⟩
  · rcases hpayload : frame.payload.toBuffer with fault | payload
    · rw [hpayload] at h
      cases h
    rw [hpayload] at h
    rcases hparse : ({} : ARPMessage).parse payload with ⟨result, msg⟩
    simp only [bind, Except.bind, hparse] at h
    split_ifs at h
    · cases h
      exact ⟨fun d hd => (nomatch hd), fun seg => id⟩
    · rcases hrecv : ni.recvARP msg with fault | ni₁
      · rw [hrecv] at h
        cases h
      · rw [hrecv] at h
        cases h
        exact ⟨fun d hd => (nomatch hd), fun seg holds => holds.of_recvARP hrecv⟩
  · rcases hpayload : frame.payload.toBuffer with fault | payload
    · rw [hpayload] at h
      cases h
    rw [hpayload] at h
    rcases hparse : ({} : IPv4Datagram).parse payload with ⟨result, datagram⟩
    simp only [bind, Except.bind, hparse] at h
    split_ifs at h with ok
    · cases h
      refine ⟨fun d hd => ?_, fun seg => id⟩
      cases hd
      exact ⟨hIPv4, payload, rfl, by rw [hparse, ok]⟩
    · cases h
      exact ⟨fun d hd => (nomatch hd), fun seg => id⟩
  · cases h
    exact ⟨fun d hd => (nomatch hd), fun seg => id⟩

end NetworkInterface

namespace TCPOverIPv4OverEthernetAdapter

/-- What `send_pending` puts out, and what is held after it, was held before. -/
theorem holds_of_sendPending {a : TCPOverIPv4OverEthernetAdapter} {seg : TCPSegment}
    (h : a.sendPending.1.interface.Holds seg ∨
      ∃ d ∈ a.sendPending.2, EthernetFrame.Delivers (FDWrapper.packet d) seg) :
    a.interface.Holds seg := by
  rcases h with (⟨f, hf, -⟩ | pending) | ⟨d, hd, delivers⟩
  · exact absurd hf List.not_mem_nil
  · exact .inr pending
  · obtain ⟨f, hf, rfl⟩ := List.mem_map.mp hd
    exact .inl ⟨f, hf, delivers⟩

/-- `read`, taken apart. -/
theorem receive_cases {a a' : TCPOverIPv4OverEthernetAdapter} {ipDgram : Option IPv4Datagram}
    {out : Option TCPSegment} {ds : List (List UInt8)}
    (h : a.receive ipDgram = .ok (out, a', ds)) :
    (∀ seg, out = some seg → ∃ d, ipDgram = some d ∧ TCPOverIPv4Adapter.Carries d seg) ∧
      a'.interface = a.sendPending.1.interface ∧ ds = a.sendPending.2 := by
  rw [receive] at h
  cases ipDgram with
  | none =>
      cases h
      exact ⟨fun seg hseg => (nomatch hseg), rfl, rfl⟩
  | some d =>
      dsimp only at h
      rcases hunwrap : a.sendPending.1.unwrapTcpInIp d with fault | ⟨seg, adapter⟩
      · rw [hunwrap] at h
        cases h
      · rw [hunwrap] at h
        cases h
        refine ⟨fun seg hseg => ?_, rfl, rfl⟩
        cases hseg
        exact ⟨d, rfl, TCPOverIPv4Adapter.carries_of_unwrap hunwrap⟩

/-- `send_pending` writes only. -/
theorem sendPending_tap (a : TCPOverIPv4OverEthernetAdapter) :
    a.sendPending.1.tap.readCount = a.tap.readCount ∧
      a.sendPending.1.tap.closed = a.tap.closed := by
  have written : ∀ (frames : List EthernetFrame) (tap : FDWrapper),
      (frames.foldl (fun tap _ => tap.registerWrite) tap).readCount = tap.readCount ∧
        (frames.foldl (fun tap _ => tap.registerWrite) tap).closed = tap.closed := by
    intro frames
    induction frames with
    | nil => exact fun tap => ⟨rfl, rfl⟩
    | cons frame frames ih => exact fun tap => ih tap.registerWrite
  exact written a.interface.framesOut a.tap

/-- The checks leave the device alone. -/
theorem receive_tap {a a' : TCPOverIPv4OverEthernetAdapter} {ipDgram : Option IPv4Datagram}
    {out : Option TCPSegment} {ds : List (List UInt8)}
    (h : a.receive ipDgram = .ok (out, a', ds)) : a'.tap = a.sendPending.1.tap := by
  unfold receive at h
  dsimp only at h
  split at h
  · cases h
    rfl
  · split at h
    · cases h
    · cases h
      rfl

theorem lawful : FdAdapter.Lawful TCPOverIPv4OverEthernetAdapter where
  counted := by
    intro a a' d out ds h
    show a'.tap.readCount ≠ _ ∧ a'.tap.closed = _
    rcases hparse : ({} : EthernetFrame).parse (FDWrapper.packet d) with ⟨result, frame⟩
    obtain ⟨fd, hfd⟩ : ∃ fd, a.tap.readPacket d = (FDWrapper.packet d, fd) := ⟨_, rfl⟩
    have counted := a.tap.readPacket_snd d
    rw [hfd] at counted
    simp only [FdAdapter.read, read, hfd, hparse] at h
    have tap : a'.tap.readCount = fd.readCount ∧ a'.tap.closed = fd.closed := by
      cases result with
      | noError =>
          rcases hrecv : a.interface.recvFrame frame with fault | ⟨ipDgram, interface⟩
          · simp only [hrecv] at h
            cases h
          · simp only [hrecv] at h
            rw [receive_tap h]
            exact sendPending_tap _
      | _ =>
          cases h
          exact ⟨rfl, rfl⟩
    rw [tap.1, tap.2]
    exact counted
  write := by
    intro a a' seg ds h
    simp only [FdAdapter.write, write] at h
    split at h
    · cases h
    · split at h
      · cases h
      · next interface _ =>
        have hpending : ({ a with interface := interface } :
            TCPOverIPv4OverEthernetAdapter).sendPending = (a', ds) := Except.ok.inj h
        have htap := ({ a with interface := interface } :
          TCPOverIPv4OverEthernetAdapter).sendPending_tap
        rw [hpending] at htap
        exact htap.2
  tick a ms := ({ a with interface := a.interface.tick ms } :
    TCPOverIPv4OverEthernetAdapter).sendPending_tap.2

/-- A datagram may wait in the interface, and comes out of it when its next hop is known. -/
def relay : Relay TCPOverIPv4OverEthernetAdapter where
  Delivers := EthernetFrame.Delivers
  Held a := a.interface.Holds
  read := by
    intro a a' d out ds h
    rcases hparse : ({} : EthernetFrame).parse (FDWrapper.packet d) with ⟨result, frame⟩
    simp only [FdAdapter.read, read, FDWrapper.readPacket, hparse] at h
    cases result with
    | noError =>
        rcases hrecv : a.interface.recvFrame frame with fault | ⟨ipDgram, interface⟩
        · simp only [hrecv] at h
          cases h
        simp only [hrecv] at h
        obtain ⟨returned, held⟩ := NetworkInterface.recvFrame_cases hrecv
        obtain ⟨carries, hinterface, rfl⟩ := receive_cases h
        refine ⟨fun seg hseg => ?_, fun seg hseg => ?_⟩
        · obtain ⟨dgram, hdgram, hcarries⟩ := carries seg hseg
          obtain ⟨htype, payload, hpayload, hdatagram⟩ := returned dgram hdgram
          exact ⟨frame, hparse, htype, payload, hpayload, dgram, hdatagram, hcarries⟩
        · rw [hinterface] at hseg
          exact held seg (holds_of_sendPending hseg)
    | _ =>
        cases h
        refine ⟨fun seg hseg => (nomatch hseg), ?_⟩
        rintro seg (held | ⟨d, hd, -⟩)
        · exact held
        · exact absurd hd List.not_mem_nil
  write := by
    intro a a' seg ds fits h seg' hseg'
    obtain ⟨stamped, ipDgram, bytes, hwrap, hbytes, same⟩ :=
      TCPOverIPv4Adapter.delivers_wrap a.toTCPOverIPv4Adapter fits
    simp only [FdAdapter.write, write, hwrap] at h
    rcases hsend : a.interface.sendDatagram ipDgram a.nextHop with fault | interface
    · simp only [hsend] at h
      cases h
    simp only [hsend, Except.ok.injEq] at h
    have pending : ({ a with interface := interface } : TCPOverIPv4OverEthernetAdapter).sendPending
        = (a', ds) := h
    have held : interface.Holds seg' := by
      refine holds_of_sendPending (a := { a with interface := interface }) ?_
      rwa [pending]
    rcases held.of_sendDatagram hsend with held | ⟨bytes', hbytes', delivers⟩
    · exact .inl held
    · cases hbytes.symm.trans hbytes'
      exact .inr (same seg' delivers)
  tick a ms seg h := holds_of_sendPending h
  setConfig := id
  setListening := id

/-- The dummy frame is no segment. -/
theorem fresh_new (tap : FDWrapper) (ethAddress : EthernetAddress) (ipAddress nextHop : Address) :
    relay.Fresh (new tap ethAddress ipAddress nextHop) := by
  rintro seg (held | ⟨d, hd, delivers⟩)
  · rcases held with ⟨f, hf, -⟩ | ⟨e, he, -⟩
    · exact List.not_mem_nil hf
    · exact List.not_mem_nil he
  · cases List.mem_singleton.mp hd
    have small : (onTap {}).length ≤ FDWrapper.bufferSize := by
      rw [NetworkInterface.length_onTap]
      decide
    have delivers' : EthernetFrame.Delivers (FDWrapper.packet (onTap {})) seg := delivers
    rw [FDWrapper.packet_of_le small, onTap, EthernetFrame.delivers_serialize] at delivers'
    exact absurd delivers'.1 (by decide)

end TCPOverIPv4OverEthernetAdapter

end Sponge
