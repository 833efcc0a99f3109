import Sponge.Library.GuardedRun
import Sponge.Library.Resolution
import Sponge.NetworkInterface
import Sponge.Side

/-!
# Two network interfaces on a link

Two interfaces on a link that loses nothing.  A frame that is taken from the outbound queue
of one side is in transit until it is delivered to the other, in any order and after any
time; it is delivered once, as bytes.  The owners send datagrams to each other's address and
let time pass in any order.

The argument has two layers.  `Resolution` is the protocol, with messages in the place of
frames.  `party` reads a party of the protocol off a station, and every operation of the
stations is an action of the parties (`Fit.send`, `Fit.tick`, `Fit.receive`), as long as every
frame under way is one that an interface sends (`Proper`).

`lossless_delivery` is the result.

### What a frame means

A frame is bytes.  `meaning` parses it, and `Proper` says which bytes an interface sends;
the two together replace frames by the three messages of the protocol.  An interface that is
sent something improper is not covered here but in `NetworkInterface.Traffic`, where frames
may be anything.

Datagrams are compared up to the checksum, because `serialize` fills it in: what is returned
has the right one, what was submitted need not.

### Why a quiet link

Nothing forces the network to deliver, so *everything arrives* can only be said of a state
in which nothing is under way any more.  The statement about such states is what excludes a
datagram that waits for ever: it would be pending while no frame is left that could set it
free.  The library's invariant is that there always is one (`Resolution.Half.resolving`).
-/

namespace Sponge

open Runs Resolution Expiry

/-- An interface and the history of its use.  The frames in transit may be delivered in any order,
but each of them once: nothing is lost on this link. -/
structure Station where
  ifc : NetworkInterface
  /-- The frames taken from the outbound queue and not yet delivered to the peer. -/
  transit : List EthernetFrame := []
  /-- The datagrams that were to be sent. -/
  submitted : List IPv4Datagram := []
  /-- The datagrams that `recv_frame` returned. -/
  returned : List IPv4Datagram := []

/-- The stations at both ends. -/
abbrev Link := Side → Station

namespace Link

inductive Op where
  /-- `side` sends a datagram to its peer. -/
  | send (side : Side) (dgram : IPv4Datagram)
  | tick (side : Side) (ms : ℕ)
  /-- The first frame of `side`'s outbound queue is taken. -/
  | take (side : Side)
  /-- The `i`-th of the frames in transit to `side` is delivered. -/
  | deliver (side : Side) (i : ℕ)

/-- Two unused interfaces, each with its addresses. -/
def start (ethernetAddress : Side → EthernetAddress) (ipAddress : Side → Address) : Link :=
  fun side => { ifc := { ethernetAddress := ethernetAddress side, ipAddress := ipAddress side } }

def step (n : Link) : Op → Except WireFault Link
  | .send side dgram => do
      let ifc ← (n side).ifc.sendDatagram dgram (n side.peer).ifc.ipAddress
      .ok (Function.update n side
        { n side with ifc := ifc, submitted := (n side).submitted ++ [dgram] })
  | .tick side ms => .ok (Function.update n side { n side with ifc := (n side).ifc.tick ms })
  | .take side =>
      match (n side).ifc.framesOut with
      | [] => .ok n
      | frame :: rest => .ok (Function.update n side
          { n side with
            ifc := { (n side).ifc with framesOut := rest }
            transit := (n side).transit ++ [frame] })
  | .deliver side i =>
      match (n side.peer).transit[i]? with
      | none => .ok n
      | some frame =>
          let n := Function.update n side.peer
            { n side.peer with transit := (n side.peer).transit.eraseIdx i }
          match ({} : EthernetFrame).parse frame.serialize.concatenate with
          | (.noError, frame) => do
              let (out, ifc) ← (n side).ifc.recvFrame frame
              .ok (Function.update n side
                { n side with ifc := ifc, returned := (n side).returned ++ out.toList })
          | _ => .ok n

/-- **What the owners may do**: send datagrams that can be serialised, and let time pass for
less than `2 ^ 63` milliseconds in all. -/
def Allowed (n : Link) : Op → Prop
  | .send _ dgram => dgram.Sendable
  | .tick side ms => (n side).ifc.currentTime + ms < 2 ^ 63
  | .take _ => True
  | .deliver _ _ => True

/-- No frame is queued or in transit. -/
def Quiet (n : Link) : Prop := ∀ side, (n side).ifc.framesOut = [] ∧ (n side).transit = []

end Link

/-! ## Frames as messages -/

/-- What is compared of a datagram: all but the checksum, and the payload's bytes. -/
def IPv4Datagram.upToChecksum (d : IPv4Datagram) : IPv4Header × List UInt8 :=
  ({ d.header with cksum := 0 }, d.payload.concatenate)

/-- The message that a frame is. -/
def EthernetFrame.meaning (f : EthernetFrame) : Message (IPv4Header × List UInt8) :=
  if f.header.type = EthernetHeader.typeIPv4 then
    .item (({} : IPv4Datagram).parse f.payload.concatenate).2.upToChecksum
  else if (({} : ARPMessage).parse f.payload.concatenate).2.opcode = ARPMessage.opcodeReply then
    .reply
  else .request

/-- The frames that one interface sends to another.  Nobody else is on the link, so these are all
the frames there are. -/
inductive Proper (x y : NetworkInterface) : EthernetFrame → Prop
  | request : Proper x y (x.requestFrame y.ipAddress.ipv4Numeric)
  | reply : Proper x y (x.replyFrame y)
  | datagram {d : IPv4Datagram} (sendable : d.Sendable) :
      Proper x y (x.datagramFrame y.ethernetAddress d)

/-- What arrives is what was sent, up to the checksum. -/
theorem upToChecksum_arrived (d : IPv4Datagram) :
    (⟨d.header.checksummed, [d.payload.concatenate]⟩ : IPv4Datagram).upToChecksum
      = d.upToChecksum := by
  simp [IPv4Datagram.upToChecksum, IPv4Header.checksummed, BufferList.concatenate]

section Meaning

variable (x y : NetworkInterface)

/-- A request is parsed back as a request. -/
theorem meaning_request (ip : UInt32) : (x.requestFrame ip).meaning = .request := by
  have hparse : ({} : ARPMessage).parse (x.requestFrame ip).payload.concatenate
      = (.noError, x.arpRequest ip) := by
    simp only [NetworkInterface.requestFrame, BufferList.concatenate, List.flatten_cons,
      List.flatten_nil, List.append_nil]
    exact ARPMessage.parse_bytes rfl {}
  have hne : (x.requestFrame ip).header.type ≠ EthernetHeader.typeIPv4 := by
    show EthernetHeader.typeARP ≠ EthernetHeader.typeIPv4
    decide
  rw [EthernetFrame.meaning, if_neg hne, hparse]
  exact if_neg (show ARPMessage.opcodeRequest ≠ ARPMessage.opcodeReply by decide)

theorem meaning_reply : (x.replyFrame y).meaning = .reply := by
  have hparse : ({} : ARPMessage).parse (x.replyFrame y).payload.concatenate
      = (.noError, x.arpReply (y.arpRequest x.ipAddress.ipv4Numeric)) := by
    simp only [NetworkInterface.replyFrame, BufferList.concatenate, List.flatten_cons,
      List.flatten_nil, List.append_nil]
    exact ARPMessage.parse_bytes rfl {}
  have hne : (x.replyFrame y).header.type ≠ EthernetHeader.typeIPv4 := by
    show EthernetHeader.typeARP ≠ EthernetHeader.typeIPv4
    decide
  rw [EthernetFrame.meaning, if_neg hne, hparse]
  exact if_pos rfl

/-- A datagram is parsed back, up to its checksum. -/
theorem meaning_datagram {d : IPv4Datagram} (sendable : d.Sendable) (address : EthernetAddress) :
    (x.datagramFrame address d).meaning = .item d.upToChecksum := by
  obtain ⟨bytes, hbytes, -, hparse⟩ := IPv4Datagram.parse_serialize sendable {}
  rw [IPv4Datagram.serialize_eq sendable.serializable] at hbytes
  cases hbytes
  have htype : (x.datagramFrame address d).header.type = EthernetHeader.typeIPv4 := rfl
  have hpayload : (x.datagramFrame address d).payload
      = d.header.checksummed.bytes :: d.payload := rfl
  rw [EthernetFrame.meaning, if_pos htype, hpayload, hparse, upToChecksum_arrived]

/-- Frames depend on the addresses of the interfaces only. -/
theorem Proper.congr {x x' y y' : NetworkInterface} {f : EthernetFrame} (h : Proper x y f)
    (hx : x'.ethernetAddress = x.ethernetAddress ∧ x'.ipAddress = x.ipAddress)
    (hy : y'.ethernetAddress = y.ethernetAddress ∧ y'.ipAddress = y.ipAddress) :
    Proper x' y' f := by
  cases h with
  | request =>
      have hframe : x.requestFrame y.ipAddress.ipv4Numeric
          = x'.requestFrame y'.ipAddress.ipv4Numeric := by
        simp only [NetworkInterface.requestFrame, NetworkInterface.arpRequest, hx, hy]
      rw [hframe]
      exact .request
  | reply =>
      have hframe : x.replyFrame y = x'.replyFrame y' := by
        simp only [NetworkInterface.replyFrame, NetworkInterface.arpReply,
          NetworkInterface.arpRequest, hx, hy]
      rw [hframe]
      exact .reply
  | datagram sendable =>
      rename_i d
      have hframe : x.datagramFrame y.ethernetAddress d
          = x'.datagramFrame y'.ethernetAddress d := by
        simp only [NetworkInterface.datagramFrame, hx, hy]
      rw [hframe]
      exact .datagram sendable

end Meaning

/-! ## Stations as parties -/

namespace Station

/-- The address the peer is reached at. -/
def ip (s : Station) : UInt32 := s.ifc.ipAddress.ipv4Numeric

/-- The frames that have not been delivered yet. -/
def underWay (s : Station) : List EthernetFrame := s.transit ++ s.ifc.framesOut

/-- The party that a station is, towards the peer at an address. -/
def party (s : Station) (ip : UInt32) : Party (IPv4Header × List UInt8) where
  clock := s.ifc.currentTime
  known := (s.ifc.mapping ip).map Prod.snd
  asked := s.ifc.blockingMapping ip
  waiting := s.ifc.pendingList.map fun e => e.1.upToChecksum
  flying := s.underWay.map EthernetFrame.meaning
  submitted := s.submitted.map IPv4Datagram.upToChecksum
  received := s.returned.map IPv4Datagram.upToChecksum

/-- The interface of a station is the same, with other contents. -/
def SameAddresses (s s' : Station) : Prop :=
  s'.ifc.ethernetAddress = s.ifc.ethernetAddress ∧ s'.ifc.ipAddress = s.ifc.ipAddress

end Station

/-- What a station `x` contains fits its peer `y`. -/
structure Fit (x y : Station) : Prop where
  frames : ∀ f ∈ x.underWay, Proper x.ifc y.ifc f
  mapping : ∀ e ∈ x.ifc.mapping y.ip, e.1 = y.ifc.ethernetAddress
  pending : ∀ e ∈ x.ifc.pendingList, e.2.ipv4Numeric = y.ip ∧ e.1.Sendable
  clock : x.ifc.currentTime < 2 ^ 63

namespace Fit

variable {x x' y y' : Station}

/-- The peer may change, except for its addresses. -/
theorem peer (fit : Fit x y) (same : y.SameAddresses y') : Fit x y' where
  frames := fun f hf => (fit.frames f hf).congr ⟨rfl, rfl⟩ same
  mapping := by
    rw [Station.ip, same.1, same.2]
    exact fit.mapping
  pending := by
    rw [Station.ip, same.2]
    exact fit.pending
  clock := fit.clock

/-- `x` has become `x'`, which is the party `p`.  Each action of a station ends in such a
statement, and the library is asked only about `p`. -/
structure Becomes (x y x' : Station) (p : Party (IPv4Header × List UInt8)) : Prop where
  same : x.SameAddresses x'
  fit : Fit x' y
  party : x'.party y.ip = p

/-- Frames that are sent join those that are under way. -/
theorem frames_append {new : List EthernetFrame} (fit : Fit x y) (same : x.SameAddresses x')
    (hunderWay : x'.underWay = x.underWay ++ new) (hnew : ∀ f ∈ new, Proper x.ifc y.ifc f) :
    ∀ f ∈ x'.underWay, Proper x'.ifc y.ifc f := by
  intro f hf
  rw [hunderWay] at hf
  rcases List.mem_append.mp hf with hf | hf
  · exact (fit.frames f hf).congr same ⟨rfl, rfl⟩
  · exact (hnew f hf).congr same ⟨rfl, rfl⟩

/-- Frames that are under way stay proper as long as the addresses do. -/
theorem frames_kept (fit : Fit x y) (same : x.SameAddresses x')
    (hunderWay : x'.underWay = x.underWay) : ∀ f ∈ x'.underWay, Proper x'.ifc y.ifc f :=
  fun f hf => (fit.frames f (hunderWay ▸ hf)).congr same ⟨rfl, rfl⟩

/-- A datagram that has to wait is one for the peer. -/
theorem pending_append (fit : Fit x y) {d : IPv4Datagram} (sendable : d.Sendable) :
    ∀ e ∈ x.ifc.pendingList ++ [(d, y.ifc.ipAddress)],
      e.2.ipv4Numeric = y.ip ∧ e.1.Sendable := by
  intro e he
  rcases List.mem_append.mp he with he | he
  · exact fit.pending e he
  · rw [List.mem_singleton.mp he]
    exact ⟨rfl, sendable⟩

/-- **Sending** is an action of the party. -/
theorem send (fit : Fit x y) {d : IPv4Datagram} (sendable : d.Sendable) :
    ∃ ifc, x.ifc.sendDatagram d y.ifc.ipAddress = .ok ifc ∧
      Becomes x y { x with ifc := ifc, submitted := x.submitted ++ [d] }
        ((x.party y.ip).submit d.upToChecksum) := by
  refine ⟨_, NetworkInterface.sendDatagram_eq x.ifc fun _ => sendable.serializable, ?_⟩
  rcases hmap : x.ifc.mapping y.ifc.ipAddress.ipv4Numeric with _ | ⟨address, t⟩
  · rcases hblock : x.ifc.blockingMapping y.ifc.ipAddress.ipv4Numeric with _ | t
    · refine ⟨⟨rfl, rfl⟩, ⟨?_, fit.mapping, fit.pending_append sendable, fit.clock⟩, ?_⟩
      · refine fit.frames_append ⟨rfl, rfl⟩ (List.append_assoc _ _ _).symm fun f hf => ?_
        rw [List.mem_singleton.mp hf]
        exact .request
      · simp [Station.party, Station.underWay, Station.ip, Party.submit, Party.send, hmap, hblock,
          meaning_request]
    · refine ⟨⟨rfl, rfl⟩, ⟨fit.frames_kept ⟨rfl, rfl⟩ rfl, fit.mapping,
        fit.pending_append sendable, fit.clock⟩, ?_⟩
      simp [Station.party, Station.underWay, Station.ip, Party.submit, Party.send, hmap, hblock]
  · have haddress : address = y.ifc.ethernetAddress := fit.mapping _ hmap
    refine ⟨⟨rfl, rfl⟩, ⟨?_, fit.mapping, fit.pending, fit.clock⟩, ?_⟩
    · refine fit.frames_append ⟨rfl, rfl⟩ (List.append_assoc _ _ _).symm fun f hf => ?_
      rw [List.mem_singleton.mp hf, haddress]
      exact .datagram sendable
    · simp [Station.party, Station.underWay, Station.ip, Party.submit, Party.send, hmap,
        NetworkInterface.push, meaning_datagram _ sendable]

/-- A time stamp that is not in the future does not overflow. -/
theorem filter_eq_expire {date : Option ℕ} {life now : ℕ} (hlife : life < 2 ^ 62)
    (hdate : ∀ t ∈ date, t < 2 ^ 63) :
    (date.filter fun t => ¬add64 t life ≤ now) = Party.expire life now date := by
  rcases date with _ | t
  · rfl
  · have hadd : add64 t life = t + life := by
      have := hdate t rfl
      exact add64_of_lt (by omega)
    simp [Party.expire, Option.filter_some, hadd]

/-- **The passing of time** is an action of the party. -/
theorem tick (fit : Fit x y) {p : Party (IPv4Header × List UInt8)} (half : Half (x.party y.ip) p)
    {ms : ℕ} (hms : x.ifc.currentTime + ms < 2 ^ 63) :
    Becomes x y { x with ifc := x.ifc.tick ms }
      ((x.party y.ip).elapse NetworkInterface.arpValidTime NetworkInterface.arpReqBlockingTime
        ms) := by
  have hclock := fit.clock
  have hnow : add64 x.ifc.currentTime ms = x.ifc.currentTime + ms := add64_of_lt (by omega)
  have hknown : ((x.ifc.tick ms).mapping y.ip).map Prod.snd
      = Party.expire NetworkInterface.arpValidTime (x.ifc.currentTime + ms)
        ((x.ifc.mapping y.ip).map Prod.snd) := by
    rw [← hnow, ← filter_eq_expire (by decide)]
    · simp only [NetworkInterface.tick, Option.filter_map, Function.comp_def]
    · exact fun t ht => Nat.lt_of_le_of_lt (half.known_le t ht) hclock
  have hasked : (x.ifc.tick ms).blockingMapping y.ip
      = Party.expire NetworkInterface.arpReqBlockingTime (x.ifc.currentTime + ms)
        (x.ifc.blockingMapping y.ip) := by
    rw [← hnow, ← filter_eq_expire (by decide)]
    · rfl
    · exact fun t ht => Nat.lt_of_le_of_lt (half.asked_le t ht) hclock
  refine ⟨⟨rfl, rfl⟩, ⟨fit.frames_kept ⟨rfl, rfl⟩ rfl, ?_, fit.pending, ?_⟩, ?_⟩
  · intro e he
    exact fit.mapping e (Option.mem_filter_iff.mp he).1
  · show add64 x.ifc.currentTime ms < 2 ^ 63
    rw [hnow]
    exact hms
  · rw [Station.party, hknown, hasked]
    show Party.mk (add64 x.ifc.currentTime ms) _ _ _ _ _ _ = _
    rw [hnow]
    rfl

/-- What the peer is known by, after it has been heard of. -/
theorem learned (fit : Fit x y) {e : EthernetAddress × ℕ}
    (he : e ∈ record x.ifc.mapping y.ip (y.ifc.ethernetAddress, x.ifc.currentTime) y.ip) :
    e.1 = y.ifc.ethernetAddress := by
  rw [record_self] at he
  rcases hmap : x.ifc.mapping y.ip with _ | e'
  · rw [hmap] at he
    cases he
    rfl
  · rw [hmap] at he
    cases he
    exact fit.mapping _ hmap

/-- Recording a sender is learning an address. -/
theorem known_record (m : UInt32 → Option (EthernetAddress × ℕ)) (ip : UInt32)
    (address : EthernetAddress) (now : ℕ) :
    (record m ip (address, now) ip).map Prod.snd = ((m ip).map Prod.snd).or (some now) := by
  rw [record_self]
  rcases m ip with _ | e <;> rfl

/-- **The arrival of a frame** is an action of the party. -/
theorem receive (fit : Fit x y) {f : EthernetFrame} (proper : Proper y.ifc x.ifc f) :
    ∃ out ifc, x.ifc.recvFrame (NetworkInterface.arrived f) = .ok (out, ifc) ∧
      Becomes x y { x with ifc := ifc, returned := x.returned ++ out.toList }
        ((x.party y.ip).receive f.meaning) := by
  cases proper with
  | request =>
      refine ⟨_, _, NetworkInterface.recvFrame_request x.ifc y.ifc,
        ⟨rfl, rfl⟩, ⟨?_, fun e he => fit.learned he, fit.pending, fit.clock⟩, ?_⟩
      · refine fit.frames_append ⟨rfl, rfl⟩ (List.append_assoc _ _ _).symm fun f hf => ?_
        rw [List.mem_singleton.mp hf]
        exact .reply
      · rw [meaning_request]
        simp only [Station.party, Station.underWay, Station.ip, Party.receive, Party.learn,
          known_record, List.map_append, List.map_cons, List.map_nil, meaning_reply,
          List.append_assoc, Option.toList_none, List.append_nil]
  | reply =>
      refine ⟨_, _, NetworkInterface.recvFrame_reply fit.mapping fit.pending,
        ⟨rfl, rfl⟩, ⟨?_, fun e he => fit.learned he, fun _ he => absurd he List.not_mem_nil,
          fit.clock⟩, ?_⟩
      · refine fit.frames_append ⟨rfl, rfl⟩ (List.append_assoc _ _ _).symm fun f hf => ?_
        obtain ⟨e, he, rfl⟩ := List.mem_map.mp hf
        exact .datagram (fit.pending e he).2
      · have hsent : (x.ifc.pendingList.map fun e =>
            (x.ifc.datagramFrame y.ifc.ethernetAddress e.1).meaning)
              = x.ifc.pendingList.map fun e => .item e.1.upToChecksum :=
          List.map_congr_left fun e he => meaning_datagram _ (fit.pending e he).2 _
        rw [meaning_reply]
        simp only [Station.party, Station.underWay, Station.ip, Party.receive, Party.learn,
          known_record, List.map_append, List.map_nil, List.map_map, Function.comp_def, hsent,
          List.append_assoc, Option.toList_none, List.append_nil]
  | datagram sendable =>
      refine ⟨_, _, NetworkInterface.recvFrame_datagram x.ifc y.ifc sendable,
        ⟨rfl, rfl⟩, ⟨fit.frames_kept ⟨rfl, rfl⟩ rfl, fit.mapping, fit.pending, fit.clock⟩, ?_⟩
      rw [meaning_datagram _ sendable]
      simp [Station.party, Station.underWay, Party.receive, upToChecksum_arrived]

end Fit

/-! ## The link -/

/-- **What holds between a station and its peer**, in every state.  The first part is about frames
and tables, and is what keeps the calls from throwing; the second is the invariant of the library,
which knows neither. -/
structure Linked (x y : Station) : Prop where
  fit : Fit x y
  half : Half (x.party y.ip) (y.party x.ip)

namespace Linked

variable {x x' y : Station} {p : Party (IPv4Header × List UInt8)}

/-- A station that acts on its own stays linked, if the party it is does. -/
theorem act (there : Linked y x) (becomes : Fit.Becomes x y x' p)
    (hhere : Half p (y.party x.ip)) (hthere : Half (y.party x.ip) p) :
    Linked x' y ∧ Linked y x' := by
  have hip : x'.ip = x.ip := by rw [Station.ip, becomes.same.2, Station.ip]
  refine ⟨⟨becomes.fit, ?_⟩, ⟨there.fit.peer becomes.same, ?_⟩⟩
  · rw [becomes.party, hip]
    exact hhere
  · rw [becomes.party, hip]
    exact hthere

/-- A frame is delivered to `x`: it is no longer under way from `y`. -/
theorem deliver (here : Linked x y) (there : Linked y x) {i : ℕ} {f : EthernetFrame}
    (hf : y.transit[i]? = some f) :
    ∃ out ifc, x.ifc.recvFrame (NetworkInterface.arrived f) = .ok (out, ifc) ∧
      Linked { x with ifc := ifc, returned := x.returned ++ out.toList }
        { y with transit := y.transit.eraseIdx i } ∧
      Linked { y with transit := y.transit.eraseIdx i }
        { x with ifc := ifc, returned := x.returned ++ out.toList } := by
  obtain ⟨hi, rfl⟩ := List.getElem?_eq_some_iff.mp hf
  have hperm : y.underWay.Perm
      (y.transit[i] :: ({ y with transit := y.transit.eraseIdx i } : Station).underWay) :=
    (List.getElem_cons_eraseIdx_perm hi).symm.append_right _
  obtain ⟨out, ifc, hrecv, becomes⟩ := here.fit.receive
    (there.fit.frames _ (List.mem_append_left _ (List.getElem_mem hi)))
  have fit : Fit { y with transit := y.transit.eraseIdx i } x :=
    ⟨fun f hf => there.fit.frames f (hperm.mem_iff.mpr (List.mem_cons_of_mem _ hf)),
      there.fit.mapping, there.fit.pending, there.fit.clock⟩
  have hflying : (y.party x.ip).flying.Perm (y.transit[i].meaning ::
      ({ y with transit := y.transit.eraseIdx i } : Station).underWay.map EthernetFrame.meaning) :=
    hperm.map _
  have hip : ({ x with ifc := ifc, returned := x.returned ++ out.toList } : Station).ip = x.ip := by
    rw [Station.ip, becomes.same.2, Station.ip]
  have hhere := here.half.arrived hflying
  have hthere := there.half.arrives hflying
  rw [← becomes.party] at hhere hthere
  refine ⟨out, ifc, hrecv, ⟨becomes.fit.peer ⟨rfl, rfl⟩, ?_⟩, ⟨fit.peer becomes.same, ?_⟩⟩
  · rw [hip]
    exact hhere
  · rw [hip]
    exact hthere

end Linked

namespace Link

variable {n : Link}

/-- Both sides are linked to each other. -/
def Sound (n : Link) : Prop := ∀ side, Linked (n side) (n side.peer)

/-- Two stations that have not met. -/
theorem sound_start (ethernetAddress : Side → EthernetAddress) (ipAddress : Side → Address) :
    Sound (start ethernetAddress ipAddress) := by
  intro side
  refine ⟨⟨fun f hf => (nomatch hf), fun e he => (nomatch he), fun e he => (nomatch he), ?_⟩,
    Half.start⟩
  show 0 < 2 ^ 63
  decide

/-- The same, seen from the other side. -/
theorem Sound.back (sound : Sound n) (side : Side) : Linked (n side.peer) (n side) := by
  have := sound side.peer
  rwa [Side.peer_peer] at this

/-- One station changes. -/
theorem sound_update {side : Side} {x : Station}
    (linked : Linked x (n side.peer) ∧ Linked (n side.peer) x) :
    Sound (Function.update n side x) :=
  Side.forall_update (R := fun y x => Linked x y) linked.1 linked.2

/-- Taking a frame from the queue changes nothing between the stations. -/
theorem take_becomes {x y : Station} (fit : Fit x y) {frame : EthernetFrame}
    {rest : List EthernetFrame} (hframes : x.ifc.framesOut = frame :: rest) :
    Fit.Becomes x y
      { x with ifc := { x.ifc with framesOut := rest }, transit := x.transit ++ [frame] }
      (x.party y.ip) := by
  have hunderWay : ({ x with
      ifc := { x.ifc with framesOut := rest }
      transit := x.transit ++ [frame] } : Station).underWay = x.underWay := by
    simp only [Station.underWay, hframes, List.append_assoc, List.singleton_append]
  refine ⟨⟨rfl, rfl⟩, ⟨fit.frames_kept ⟨rfl, rfl⟩ hunderWay, fit.mapping, fit.pending, fit.clock⟩,
    ?_⟩
  rw [Station.party, hunderWay, Station.party]

/-- A frame that is delivered reaches the interface as it was sent. -/
theorem step_deliver {side : Side} {i : ℕ} {frame : EthernetFrame} {out : Option IPv4Datagram}
    {ifc : NetworkInterface} (hframe : (n side.peer).transit[i]? = some frame)
    (hrecv : (n side).ifc.recvFrame (NetworkInterface.arrived frame) = .ok (out, ifc)) :
    n.step (.deliver side i) = .ok (Function.update
      (Function.update n side.peer
        { n side.peer with transit := (n side.peer).transit.eraseIdx i })
      side { n side with ifc := ifc, returned := (n side).returned ++ out.toList }) := by
  have hother : side ≠ side.peer := side.peer_ne.symm
  have hparse : ({} : EthernetFrame).parse frame.serialize.concatenate
      = (.noError, NetworkInterface.arrived frame) := frame.parse_serialize {}
  simp only [step, hframe, hparse, Function.update_of_ne hother, hrecv, bind, Except.bind]

/-- **One step**: nothing throws, and the stations stay linked.  Both halves are in one statement
because the invariant is what the calls need in order not to throw. -/
theorem sound_step (sound : Sound n) {op : Op} (allowed : n.Allowed op) :
    ∃ n', n.step op = .ok n' ∧ Sound n' := by
  cases op with
  | send side dgram =>
      obtain ⟨ifc, hsend, becomes⟩ := (sound side).fit.send allowed
      have hstep : n.step (.send side dgram) = .ok (Function.update n side
          { n side with ifc := ifc, submitted := (n side).submitted ++ [dgram] }) := by
        simp only [step, hsend, bind, Except.bind]
      refine ⟨_, hstep, sound_update ?_⟩
      exact (sound.back side).act becomes ((sound side).half.submit _)
        ((sound.back side).half.submitted _)
  | tick side ms =>
      refine ⟨_, rfl, sound_update ?_⟩
      exact (sound.back side).act ((sound side).fit.tick (sound side).half allowed)
        ((sound side).half.elapse (by decide) ms) ((sound.back side).half.elapsed ms)
  | take side =>
      rcases hframes : (n side).ifc.framesOut with _ | ⟨frame, rest⟩
      · exact ⟨n, by simp only [step, hframes], sound⟩
      · have hstep : n.step (.take side) = .ok (Function.update n side
            { n side with
              ifc := { (n side).ifc with framesOut := rest }
              transit := (n side).transit ++ [frame] }) := by
          simp only [step, hframes]
        refine ⟨_, hstep, sound_update ?_⟩
        exact (sound.back side).act (take_becomes (sound side).fit hframes) (sound side).half
          (sound.back side).half
  | deliver side i =>
      rcases hframe : (n side.peer).transit[i]? with _ | frame
      · exact ⟨n, by simp only [step, hframe], sound⟩
      · obtain ⟨out, ifc, hrecv, here, there⟩ := (sound side).deliver (sound.back side) hframe
        refine ⟨_, step_deliver hframe hrecv, sound_update ?_⟩
        rw [Function.update_self]
        exact ⟨here, there⟩

/-- Every state that is reached is sound. -/
theorem sound_of_run {ethernetAddress : Side → EthernetAddress} {ipAddress : Side → Address}
    (run : GuardedRun step Allowed (start ethernetAddress ipAddress) n) : Sound n := by
  refine run.invariant Sound (sound_start ethernetAddress ipAddress) ?_
  intro n n' op sound allowed hstep
  obtain ⟨n'', hstep', sound'⟩ := sound_step sound allowed
  rw [hstep] at hstep'
  cases hstep'
  exact sound'

/-- **Lossless delivery.**  Whatever the owners do, in whatever order and after whatever time
the frames arrive: nothing throws; what one side returns was submitted on the other side, and
no submission is returned twice; and when no frame is queued or in transit, everything that
was submitted has been returned once and nothing is pending. -/
theorem lossless_delivery {ethernetAddress : Side → EthernetAddress} {ipAddress : Side → Address}
    (run : GuardedRun step Allowed (start ethernetAddress ipAddress) n) :
    (∀ op, n.Allowed op → ∃ n', n.step op = .ok n') ∧
    ∀ side,
      ((n side.peer).returned.map IPv4Datagram.upToChecksum).Subperm
        ((n side).submitted.map IPv4Datagram.upToChecksum) ∧
      (n.Quiet →
        ((n side.peer).returned.map IPv4Datagram.upToChecksum).Perm
          ((n side).submitted.map IPv4Datagram.upToChecksum) ∧
        (n side).ifc.pendingList = []) := by
  have sound := sound_of_run run
  refine ⟨fun op allowed => (sound_step sound allowed).imp fun _ h => h.1, fun side => ?_⟩
  have half := (sound side).half
  refine ⟨half.received_subperm, fun quiet => ?_⟩
  have empty : ∀ side ip, ((n side).party ip).flying = [] := by
    intro side ip
    simp [Station.party, Station.underWay, (quiet side).1, (quiet side).2]
  obtain ⟨received, waiting⟩ := half.received_of_quiet (empty _ _) (empty _ _)
  exact ⟨received, List.map_eq_nil_iff.mp waiting⟩

instance (n : Link) : ∀ op, Decidable (n.Allowed op)
  | .send _ dgram => inferInstanceAs (Decidable dgram.Sendable)
  | .tick side ms => inferInstanceAs (Decidable ((n side).ifc.currentTime + ms < 2 ^ 63))
  | .take _ => inferInstanceAs (Decidable True)
  | .deliver _ _ => inferInstanceAs (Decidable True)

instance (n : Link) : Decidable n.Quiet := inferInstanceAs (Decidable (∀ _, _ ∧ _))

/-- The Ethernet addresses of two hosts. -/
def hardware : Side → EthernetAddress
  | .a => ⟨2, 0, 0, 0, 0, 1⟩
  | .b => ⟨2, 0, 0, 0, 0, 2⟩

/-- Their IP addresses, 10.0.0.1 and 10.0.0.2. -/
def internet : Side → Address
  | .a => ⟨0x0a000001, 0⟩
  | .b => ⟨0x0a000002, 0⟩

/-- A datagram of one byte. -/
def oneByte : IPv4Datagram :=
  { header := { len := 21, src := 0x0a000001, dst := 0x0a000002 }, payload := [[7]] }

/-- Both sides ask.  Each hears the other's question before the answer to its own, so that it
knows the other's address while a datagram is still pending. -/
def crossing : List Op :=
  [.send .a oneByte, .send .b oneByte, .take .a, .take .b, .deliver .a 0, .deliver .b 0,
    .tick .a 6000, .take .a, .take .b, .deliver .a 0, .deliver .b 0,
    .take .a, .take .b, .deliver .b 0, .deliver .a 0]

theorem lossless_delivery_crossing :
    ∃ n, execute step (start hardware internet) crossing = .ok n ∧ n.Quiet ∧
      (n .a).submitted = [oneByte] ∧
      ((n .b).returned.map IPv4Datagram.upToChecksum).Perm [oneByte.upToChecksum] := by
  obtain ⟨n, done, admitted, quiet, hsubmitted⟩ :
      ∃ n, execute step (start hardware internet) crossing = .ok n ∧
        Admitted step Allowed (start hardware internet) crossing ∧ n.Quiet ∧
        (n .a).submitted = [oneByte] :=
    EndsIn.exists_ok (by decide +kernel)
  have settled := ((lossless_delivery (GuardedRun.of_execute admitted done)).2 .a).2 quiet
  rw [hsubmitted] at settled
  exact ⟨n, done, quiet, hsubmitted, settled.1⟩

end Link

end Sponge
