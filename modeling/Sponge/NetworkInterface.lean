import Mathlib.Logic.Function.Basic
import Sponge.EthernetFrame
import Sponge.Library.ExpiringTable
import Sponge.TCPOverIPv4
import Sponge.Word

/-!
# Network interfaces

Embedding of `libsponge/network_interface.{hh,cc}`.

An interface maps the IP address of a next hop to an Ethernet address.  A datagram for an
address it does not know is kept in the pending list while an ARP request is answered, and
no second request for the address is sent for five seconds.  The mapping is also learned
from requests, but only a reply sends the pending datagrams.

The two `std::unordered_map`s are functions into `Option`, and `unordered_map::insert`, which
keeps an entry that is already there, is `record` of the library of expiring tables.  The
times are `uint64_t`.

Main results, one for each thing that can be done with an interface:

* `sendDatagram_eq` — a datagram that can be serialised is sent, kept, or kept while a
  request is sent.
* `recvFrame_request`, `recvFrame_reply`, `recvFrame_datagram` — what the three kinds of
  frames do.

### Order of effects

The order in which a call changes things is kept, because a call may throw in the middle.
An ARP message is learned from before anything else is done with it; the pending datagrams
are all taken from the list before the first of them is sent; a frame is put on the queue
after its payload has been serialised.  What an exception leaves behind follows from this
order and is the subject of `NetworkInterface.Traffic`.

### Serialisation

`send_datagram` serialises a datagram only when the address is known.  One that cannot be
serialised is therefore accepted and kept, and throws out of the call that finds the
address, which may be a `recv_frame`.  So the condition in `sendDatagram_eq` is an
implication: nothing is asked of a datagram that has to wait.
-/

namespace Sponge

open Expiry

/-- `NetworkInterface`.  The two maps of the source are functions to `Option`, since nothing
depends on the order in which a hash map keeps its entries.  The list of pending datagrams is one
list for all next hops, as in the source. -/
structure NetworkInterface where
  ethernetAddress : EthernetAddress
  ipAddress : Address
  framesOut : List EthernetFrame := []
  /-- IP address to Ethernet address, and when that was learned. -/
  mapping : UInt32 → Option (EthernetAddress × ℕ) := fun _ => none
  pendingList : List (IPv4Datagram × Address) := []
  currentTime : ℕ := 0
  /-- When an IP address was asked for. -/
  blockingMapping : UInt32 → Option ℕ := fun _ => none

namespace NetworkInterface

/-- `ARP_VALID_TIME`. -/
def arpValidTime : ℕ := 30 * 1000

/-- `ARP_REQ_BLOCKING_TIME`. -/
def arpReqBlockingTime : ℕ := 5 * 1000

/-- A frame goes to the end of the outbound queue. -/
def push (ni : NetworkInterface) (frame : EthernetFrame) : NetworkInterface :=
  { ni with framesOut := ni.framesOut ++ [frame] }

/-- The request for an address. -/
def arpRequest (ni : NetworkInterface) (ip : UInt32) : ARPMessage :=
  { opcode := ARPMessage.opcodeRequest
    senderIpAddress := ni.ipAddress.ipv4Numeric
    senderEthernetAddress := ni.ethernetAddress
    targetIpAddress := ip
    targetEthernetAddress := {} }

/-- The reply to a request. -/
def arpReply (ni : NetworkInterface) (msg : ARPMessage) : ARPMessage :=
  { opcode := ARPMessage.opcodeReply
    senderEthernetAddress := ni.ethernetAddress
    senderIpAddress := ni.ipAddress.ipv4Numeric
    targetEthernetAddress := msg.senderEthernetAddress
    targetIpAddress := msg.senderIpAddress }

/-- `send_datagram`. -/
def sendDatagram (ni : NetworkInterface) (dgram : IPv4Datagram) (nextHop : Address) :
    Except WireFault NetworkInterface :=
  let nextHopIp := nextHop.ipv4Numeric
  match ni.mapping nextHopIp with
  | none =>
      let ni := { ni with pendingList := ni.pendingList ++ [(dgram, nextHop)] }
      if (ni.blockingMapping nextHopIp).isSome then .ok ni
      else do
        let ni := { ni with
          blockingMapping := record ni.blockingMapping nextHopIp ni.currentTime }
        let payload ← (ni.arpRequest nextHopIp).serialize
        .ok (ni.push
          ⟨⟨EthernetAddress.broadcast, ni.ethernetAddress, EthernetHeader.typeARP⟩, [payload]⟩)
  | some (address, _) => do
      let payload ← dgram.serialize
      .ok (ni.push ⟨⟨address, ni.ethernetAddress, EthernetHeader.typeIPv4⟩, payload⟩)

/-- The sender of an ARP message is recorded. -/
def learn (ni : NetworkInterface) (msg : ARPMessage) : NetworkInterface :=
  { ni with
    mapping := record ni.mapping msg.senderIpAddress
      (msg.senderEthernetAddress, ni.currentTime) }

/-- The pending datagrams for an address are taken out of the list and sent. -/
def flush (ni : NetworkInterface) (ip : UInt32) : Except WireFault NetworkInterface :=
  let tmpList := ni.pendingList.filter fun e => e.2.ipv4Numeric = ip
  let ni := { ni with pendingList := ni.pendingList.filter fun e => e.2.ipv4Numeric ≠ ip }
  tmpList.foldlM (fun ni e => ni.sendDatagram e.1 e.2) ni

/-- A request for the interface's own address is answered. -/
def answer (ni : NetworkInterface) (msg : ARPMessage) : Except WireFault NetworkInterface :=
  if msg.targetIpAddress ≠ ni.ipAddress.ipv4Numeric then .ok ni
  else do
    let payload ← (ni.arpReply msg).serialize
    .ok (ni.push
      ⟨⟨msg.senderEthernetAddress, ni.ethernetAddress, EthernetHeader.typeARP⟩, [payload]⟩)

/-- What `recv_frame` does with an ARP message. -/
def recvARP (ni : NetworkInterface) (msg : ARPMessage) : Except WireFault NetworkInterface :=
  let ni := ni.learn msg
  if msg.opcode = ARPMessage.opcodeReply then ni.flush msg.senderIpAddress
  else if msg.opcode = ARPMessage.opcodeRequest then ni.answer msg
  else .ok ni

/-- `recv_frame`: what it returns and the interface afterwards. -/
def recvFrame (ni : NetworkInterface) (frame : EthernetFrame) :
    Except WireFault (Option IPv4Datagram × NetworkInterface) :=
  if frame.header.dst ≠ ni.ethernetAddress ∧ frame.header.dst ≠ EthernetAddress.broadcast then
    .ok (none, ni)
  else if frame.header.type = EthernetHeader.typeARP then do
    let payload ← frame.payload.toBuffer
    let (result, msg) := ({} : ARPMessage).parse payload
    if result ≠ .noError then .ok (none, ni)
    else do
      let ni ← ni.recvARP msg
      .ok (none, ni)
  else if frame.header.type = EthernetHeader.typeIPv4 then do
    let payload ← frame.payload.toBuffer
    let (result, datagram) := ({} : IPv4Datagram).parse payload
    if result = .noError then .ok (some datagram, ni) else .ok (none, ni)
  else .ok (none, ni)

/-- `tick`. -/
def tick (ni : NetworkInterface) (ms : ℕ) : NetworkInterface :=
  let currentTime := add64 ni.currentTime ms
  { ni with
    currentTime := currentTime
    mapping := fun ip =>
      (ni.mapping ip).filter fun e => ¬add64 e.2 arpValidTime ≤ currentTime
    blockingMapping := fun ip =>
      (ni.blockingMapping ip).filter fun t => ¬add64 t arpReqBlockingTime ≤ currentTime }

/-! ## Sending -/

/-- The frame of a request. -/
def requestFrame (ni : NetworkInterface) (ip : UInt32) : EthernetFrame :=
  ⟨⟨EthernetAddress.broadcast, ni.ethernetAddress, EthernetHeader.typeARP⟩,
    [(ni.arpRequest ip).bytes]⟩

/-- The frame of a reply to an interface. -/
def replyFrame (ni peer : NetworkInterface) : EthernetFrame :=
  ⟨⟨peer.ethernetAddress, ni.ethernetAddress, EthernetHeader.typeARP⟩,
    [(ni.arpReply (peer.arpRequest ni.ipAddress.ipv4Numeric)).bytes]⟩

/-- The frame of a datagram. -/
def datagramFrame (ni : NetworkInterface) (address : EthernetAddress) (d : IPv4Datagram) :
    EthernetFrame :=
  ⟨⟨address, ni.ethernetAddress, EthernetHeader.typeIPv4⟩,
    d.header.checksummed.bytes :: d.payload⟩

/-- **Sending a datagram** that can be serialised, should its address be known.  A datagram for an
unknown address is not serialised yet, so nothing is asked of it here; it can throw later, when
the answer comes. -/
theorem sendDatagram_eq (ni : NetworkInterface) {d : IPv4Datagram} {hop : Address}
    (serializable : ni.mapping hop.ipv4Numeric ≠ none → d.Serializable) :
    ni.sendDatagram d hop = .ok
      (match ni.mapping hop.ipv4Numeric, ni.blockingMapping hop.ipv4Numeric with
      | some (address, _), _ => ni.push (ni.datagramFrame address d)
      | none, some _ => { ni with pendingList := ni.pendingList ++ [(d, hop)] }
      | none, none =>
          { ni with
            pendingList := ni.pendingList ++ [(d, hop)]
            blockingMapping := Function.update ni.blockingMapping hop.ipv4Numeric
              (some ni.currentTime)
            framesOut := ni.framesOut ++ [ni.requestFrame hop.ipv4Numeric] }) := by
  rcases hmap : ni.mapping hop.ipv4Numeric with _ | ⟨address, t⟩
  · rcases hblock : ni.blockingMapping hop.ipv4Numeric with _ | t
    · have request : ∀ ni : NetworkInterface,
          (ni.arpRequest hop.ipv4Numeric).serialize = .ok (ni.arpRequest hop.ipv4Numeric).bytes :=
        fun ni => ARPMessage.serialize_eq rfl
      simp only [sendDatagram, hmap, hblock, Option.isSome_none, Bool.false_eq_true, if_false,
        request, bind, Except.bind, record, Option.none_or]
      rfl
    · simp only [sendDatagram, hmap, hblock, Option.isSome_some, if_true]
  · have known : ni.mapping hop.ipv4Numeric ≠ none := hmap ▸ Option.some_ne_none _
    simp only [sendDatagram, hmap, IPv4Datagram.serialize_eq (serializable known), bind,
      Except.bind]
    rfl

/-- Datagrams for an address that is known are all sent, in their order. -/
theorem sendAll_eq (ni : NetworkInterface) {ip : UInt32} {address : EthernetAddress} {t : ℕ}
    (known : ni.mapping ip = some (address, t)) {list : List (IPv4Datagram × Address)}
    (hlist : ∀ e ∈ list, e.2.ipv4Numeric = ip ∧ e.1.Serializable) :
    list.foldlM (fun ni e => ni.sendDatagram e.1 e.2) ni
      = .ok { ni with framesOut := ni.framesOut ++ list.map fun e => ni.datagramFrame address e.1 } := by
  induction list generalizing ni with
  | nil => simp [pure, Except.pure]
  | cons e list ih =>
      obtain ⟨hhop, serializable⟩ := hlist e List.mem_cons_self
      have hfirst : ni.sendDatagram e.1 e.2 = .ok (ni.push (ni.datagramFrame address e.1)) := by
        rw [sendDatagram_eq ni fun _ => serializable, hhop, known]
      have hrest := ih (ni.push (ni.datagramFrame address e.1)) known
        fun e he => hlist e (List.mem_cons_of_mem _ he)
      rw [List.foldlM_cons, hfirst]
      refine hrest.trans ?_
      simp only [push, List.map_cons, List.append_assoc, List.singleton_append]
      rfl

/-- What waits for an address that is known is sent, and the rest goes on waiting. -/
theorem flush_eq {ni : NetworkInterface} {ip : UInt32} {address : EthernetAddress} {t : ℕ}
    (known : ni.mapping ip = some (address, t))
    (pending : ∀ e ∈ ni.pendingList, e.2.ipv4Numeric = ip → e.1.Serializable) :
    ni.flush ip = .ok { ni with
      pendingList := ni.pendingList.filter fun e => e.2.ipv4Numeric ≠ ip
      framesOut := ni.framesOut ++ (ni.pendingList.filter fun e => e.2.ipv4Numeric = ip).map
        fun e => ni.datagramFrame address e.1 } := by
  rw [flush]
  refine sendAll_eq { ni with
    pendingList := ni.pendingList.filter fun e => e.2.ipv4Numeric ≠ ip } known fun e he => ?_
  obtain ⟨hmem, hip⟩ := List.mem_filter.mp he
  exact ⟨of_decide_eq_true hip, pending e hmem (of_decide_eq_true hip)⟩

/-! ## Receiving -/

/-- A frame as it arrives, with its payload in one buffer. -/
def arrived (f : EthernetFrame) : EthernetFrame := ⟨f.header, [f.payload.concatenate]⟩

/-- A frame with a supported ARP message, for this interface or for everybody. -/
theorem recvFrame_ARP {ni : NetworkInterface} {f : EthernetFrame} (msg : ARPMessage)
    (hdst : (arrived f).header.dst = ni.ethernetAddress
      ∨ (arrived f).header.dst = EthernetAddress.broadcast)
    (htype : (arrived f).header.type = EthernetHeader.typeARP) (hpayload : f.payload = [msg.bytes])
    (supported : msg.supported = true) :
    ni.recvFrame (arrived f) = (ni.recvARP msg).map fun ni => (none, ni) := by
  have hbytes : (arrived f).payload.toBuffer = .ok msg.bytes := by
    simp [arrived, hpayload, BufferList.concatenate, BufferList.toBuffer]
  rw [recvFrame, if_neg fun h => hdst.elim h.1 h.2, if_pos htype, hbytes]
  simp only [bind, Except.bind, ARPMessage.parse_bytes supported]
  cases ni.recvARP msg <;> rfl

/-- **A request** is answered, and tells where its sender is.  It does not send what waits for
that sender: only a reply does. -/
theorem recvFrame_request (ni peer : NetworkInterface) :
    ni.recvFrame (arrived (peer.requestFrame ni.ipAddress.ipv4Numeric)) = .ok (none,
      { ni with
        mapping := record ni.mapping peer.ipAddress.ipv4Numeric
          (peer.ethernetAddress, ni.currentTime)
        framesOut := ni.framesOut ++ [ni.replyFrame peer] }) := by
  have noReply : (peer.arpRequest ni.ipAddress.ipv4Numeric).opcode ≠ ARPMessage.opcodeReply := by
    show ARPMessage.opcodeRequest ≠ ARPMessage.opcodeReply
    decide
  have request : (peer.arpRequest ni.ipAddress.ipv4Numeric).opcode = ARPMessage.opcodeRequest := rfl
  have supported : ((ni.learn (peer.arpRequest ni.ipAddress.ipv4Numeric)).arpReply
      (peer.arpRequest ni.ipAddress.ipv4Numeric)).supported = true := rfl
  have mine : ¬(peer.arpRequest ni.ipAddress.ipv4Numeric).targetIpAddress
      ≠ (ni.learn (peer.arpRequest ni.ipAddress.ipv4Numeric)).ipAddress.ipv4Numeric :=
    fun h => h rfl
  rw [recvFrame_ARP _ (.inr rfl) rfl rfl rfl, recvARP, if_neg noReply, if_pos request, answer,
    if_neg mine, ARPMessage.serialize_eq supported]
  rfl

/-- **A reply** sends the datagrams that waited for it. -/
theorem recvFrame_reply {ni peer : NetworkInterface}
    (known : ∀ e ∈ ni.mapping peer.ipAddress.ipv4Numeric, e.1 = peer.ethernetAddress)
    (pending : ∀ e ∈ ni.pendingList,
      e.2.ipv4Numeric = peer.ipAddress.ipv4Numeric ∧ e.1.Sendable) :
    ni.recvFrame (arrived (peer.replyFrame ni)) = .ok (none,
      { ni with
        mapping := record ni.mapping peer.ipAddress.ipv4Numeric
          (peer.ethernetAddress, ni.currentTime)
        pendingList := []
        framesOut := ni.framesOut
          ++ ni.pendingList.map fun e => ni.datagramFrame peer.ethernetAddress e.1 }) := by
  set msg := peer.arpReply (ni.arpRequest peer.ipAddress.ipv4Numeric) with hmsg
  -- the address the datagrams go to is the peer's, learned now or before
  obtain ⟨t, ht⟩ : ∃ t, (ni.learn msg).mapping peer.ipAddress.ipv4Numeric
      = some (peer.ethernetAddress, t) := by
    show ∃ t, record ni.mapping peer.ipAddress.ipv4Numeric
      (peer.ethernetAddress, ni.currentTime) peer.ipAddress.ipv4Numeric = _
    rw [record_self]
    rcases hmap : ni.mapping peer.ipAddress.ipv4Numeric with _ | ⟨address, t⟩
    · exact ⟨_, rfl⟩
    · exact ⟨t, by rw [← known _ hmap]; rfl⟩
  have reply : msg.opcode = ARPMessage.opcodeReply := rfl
  have hall : ni.pendingList.filter (fun e => e.2.ipv4Numeric = peer.ipAddress.ipv4Numeric)
      = ni.pendingList :=
    List.filter_eq_self.mpr fun e he => decide_eq_true (pending e he).1
  have hnone : ni.pendingList.filter (fun e => e.2.ipv4Numeric ≠ peer.ipAddress.ipv4Numeric)
      = [] :=
    List.filter_eq_nil_iff.mpr fun e he => by simpa using (pending e he).1
  have flushed := flush_eq ht fun e he _ => (pending e he).2.serializable
  rw [show (ni.learn msg).pendingList = ni.pendingList from rfl, hall, hnone] at flushed
  rw [recvFrame_ARP msg (.inl rfl) rfl rfl rfl, recvARP, if_pos reply]
  exact congrArg (Except.map _) flushed

/-- **A datagram** is returned. -/
theorem recvFrame_datagram (ni peer : NetworkInterface) {d : IPv4Datagram}
    (sendable : d.Sendable) :
    ni.recvFrame (arrived (peer.datagramFrame ni.ethernetAddress d)) =
      .ok (some ⟨d.header.checksummed, [d.payload.concatenate]⟩, ni) := by
  obtain ⟨bytes, hbytes, -, hparse⟩ := IPv4Datagram.parse_serialize sendable {}
  rw [IPv4Datagram.serialize_eq sendable.serializable] at hbytes
  cases hbytes
  have hbuffer : (arrived (peer.datagramFrame ni.ethernetAddress d)).payload.toBuffer
      = .ok (BufferList.concatenate (d.header.checksummed.bytes :: d.payload)) := rfl
  have noARP : (arrived (peer.datagramFrame ni.ethernetAddress d)).header.type
      ≠ EthernetHeader.typeARP := EthernetHeader.typeIPv4_ne_typeARP
  have isIPv4 : (arrived (peer.datagramFrame ni.ethernetAddress d)).header.type
      = EthernetHeader.typeIPv4 := rfl
  rw [recvFrame, if_neg fun h => h.1 rfl, if_neg noARP, if_pos isIPv4, hbuffer]
  simp only [bind, Except.bind, hparse, if_true]

end NetworkInterface

end Sponge
