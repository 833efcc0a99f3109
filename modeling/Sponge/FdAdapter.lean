import Sponge.FileDescriptor.Shared
import Sponge.Library.GuardedRun
import Sponge.TCPOverIPv4

/-!
# Adapters

An adapter stands between a connection and a device: it puts segments into what the device
carries and takes them out again, and drops what is not meant for the connection.  This module has
the interface through which `TCPSpongeSocket` uses its adapter, `TCPOverUDPSocketAdapter` of
`libsponge/tcp_helpers/fd_adapter.{hh,cc}` and `LossyFdAdapter` of
`libsponge/tcp_helpers/lossy_fd_adapter.hh`.

What matters about an adapter to the connection behind it is `Relay`: whatever the adapter has put
on its device, and whatever happens to that on the way, it can only be read as a segment the
adapter was given.  An adapter may hold a segment back and put it out later, so the statement is
about what it holds as well.

Main results:

* `TCPOverUDPSocketAdapter.reads_listening` — which of a sequence of datagrams are let through.
* `LossyFdAdapter.calls_thinned` — a lossy adapter is its inner adapter with some writes left out
  and some reads not passed on; as long as the loss rates are zero it is the inner adapter.
* `TCPOverUDPSocketAdapter.relay`, `LossyFdAdapter.relay`.

### Devices

The device is not modelled.  It takes what it is given, and hands over whatever it likes, so
an adapter's `read` has what is read as an argument and `write` has what is written in its
result.  This leaves the network between two devices to those who use the adapters:
`TCPSpongeSocket.Delivery` lets it lose, repeat and reorder.

### Why a relay speaks of bytes

`Delivers` relates bytes to segments, without an adapter.  What has been put on the device
may be read much later, by an adapter in any state, which may reject it but cannot read it
as something else.  So the promise of a relay is about every way in which the bytes could be
read.

A segment keeps its message and may change its ports and its checksum, which the adapter
writes.

### Randomness

The generator is a function from the number of a call to its result, and no result says
anything about this function.  What is shown of a lossy adapter holds whatever is drawn.

A segment is dropped after the inner adapter has read it.  So a SYN that is dropped has
already made a listening adapter take its source for the peer, and this is why the reads are
all there in the calls that `calls_thinned` compares with, and only the writes are thinned.
-/

namespace Sponge

open Runs

/-- The exceptions thrown by an adapter. -/
inductive AdapterFault where
  | wire (fault : WireFault)
  /-- `UDPSocket::recv`. -/
  | oversized
  deriving Repr, DecidableEq

/-- The text carried by the exception. -/
def AdapterFault.what : AdapterFault → String
  | .wire fault => fault.what
  | .oversized => "recvfrom (oversized datagram)"

/-- What `TCPSpongeSocket` asks of its template parameter.  `D` is what the device hands over at
once; a device takes all that it is given. -/
class FdAdapter (A : Type) (D : outParam Type) where
  /-- The descriptor of the device. -/
  fd : A → FDWrapper
  config : A → FdAdapterConfig
  /-- Assignment to `config_mut()`. -/
  setConfig : A → FdAdapterConfig → A
  setListening : A → Bool → A
  /-- The segment, the adapter afterwards, and what it has put on the device meanwhile. -/
  read : A → D → Except AdapterFault (Option TCPSegment × A × List D)
  write : A → TCPSegment → Except AdapterFault (A × List D)
  tick : A → ℕ → A × List D
  /-- The bytes that are carried. -/
  bytes : D → List UInt8

namespace TCPSegment

/-- **The same message**: the segments differ in their ports and checksums only. -/
def SameMessage (seg seg' : TCPSegment) : Prop :=
  seg'.payload = seg.payload ∧ ∃ sport dport cksum,
    seg'.header = { seg.header with sport := sport, dport := dport, cksum := cksum }

/-- The segment fits an IPv4 datagram.  The source does not check this: the length of the datagram
is stored in sixteen bits. -/
structure Fits (seg : TCPSegment) : Prop where
  doff_ge : 5 ≤ seg.header.doff.toNat
  doff_le : seg.header.doff.toNat ≤ 15
  size : 20 + 4 * seg.header.doff.toNat + seg.payload.length ≤ 65535

end TCPSegment

/-! ## Relays -/

/-- **A relay**: what comes out of the device is what was given to the adapter. -/
structure Relay (A : Type) {D : Type} [FdAdapter A D] where
  /-- The segments that the bytes can be read as. -/
  Delivers : List UInt8 → TCPSegment → Prop
  /-- The segments that the adapter has been given and may still put out. -/
  Held : A → TCPSegment → Prop
  read : ∀ {a a' : A} {d : D} {out : Option TCPSegment} {ds : List D},
    FdAdapter.read a d = .ok (out, a', ds) →
      (∀ seg, out = some seg → Delivers (FdAdapter.bytes A d) seg) ∧
      ∀ seg, (Held a' seg ∨ ∃ d' ∈ ds, Delivers (FdAdapter.bytes A d') seg) → Held a seg
  write : ∀ {a a' : A} {seg : TCPSegment} {ds : List D}, seg.Fits →
    FdAdapter.write a seg = .ok (a', ds) →
      ∀ seg', (Held a' seg' ∨ ∃ d ∈ ds, Delivers (FdAdapter.bytes A d) seg') →
        Held a seg' ∨ seg.SameMessage seg'
  tick : ∀ (a : A) (ms : ℕ) (seg : TCPSegment),
    (Held (FdAdapter.tick a ms).1 seg ∨
      ∃ d ∈ (FdAdapter.tick a ms).2, Delivers (FdAdapter.bytes A d) seg) → Held a seg
  setConfig : ∀ {a : A} {config : FdAdapterConfig} {seg : TCPSegment},
    Held (FdAdapter.setConfig a config) seg → Held a seg
  setListening : ∀ {a : A} {listening : Bool} {seg : TCPSegment},
    Held (FdAdapter.setListening a listening) seg → Held a seg

/-- The segment may still come out of the adapter, or has been put on the device. -/
def Relay.Outstanding {A D : Type} [FdAdapter A D] (relay : Relay A) (adapter : A)
    (device : List D) (seg : TCPSegment) : Prop :=
  relay.Held adapter seg ∨ ∃ d ∈ device, relay.Delivers (FdAdapter.bytes A d) seg

/-- An adapter as it is made, with what it has put on its device meanwhile: nothing that could be
read as a segment. -/
def Relay.Fresh {A D : Type} [FdAdapter A D] (relay : Relay A) (made : A × List D) : Prop :=
  ∀ seg, ¬ relay.Outstanding made.1 made.2 seg

/-- What the event loop needs of the descriptor of an adapter: a read is counted, and the
descriptor is not closed. -/
structure FdAdapter.Lawful (A : Type) {D : Type} [FdAdapter A D] : Prop where
  counted : ∀ {a a' : A} {d : D} {out : Option TCPSegment} {ds : List D},
    FdAdapter.read a d = .ok (out, a', ds) →
      (FdAdapter.fd a').readCount ≠ (FdAdapter.fd a).readCount ∧
        (FdAdapter.fd a').closed = (FdAdapter.fd a).closed
  write : ∀ {a a' : A} {seg : TCPSegment} {ds : List D}, FdAdapter.write a seg = .ok (a', ds) →
    (FdAdapter.fd a').closed = (FdAdapter.fd a).closed
  tick : ∀ (a : A) (ms : ℕ),
    (FdAdapter.fd (FdAdapter.tick a ms).1).closed = (FdAdapter.fd a).closed

/-- The relay of an adapter that holds nothing back, and puts something on its device only when it
is given a segment. -/
def Relay.direct {A D : Type} [FdAdapter A D] (Delivers : List UInt8 → TCPSegment → Prop)
    (read : ∀ {a a' : A} {d : D} {out : Option TCPSegment} {ds : List D},
      FdAdapter.read a d = .ok (out, a', ds) →
        ds = [] ∧ ∀ seg, out = some seg → Delivers (FdAdapter.bytes A d) seg)
    (write : ∀ {a a' : A} {seg : TCPSegment} {ds : List D}, seg.Fits →
      FdAdapter.write a seg = .ok (a', ds) →
        ∀ d ∈ ds, ∀ seg', Delivers (FdAdapter.bytes A d) seg' → seg.SameMessage seg')
    (tick : ∀ (a : A) (ms : ℕ), (FdAdapter.tick a ms).2 = []) : Relay A where
  Delivers := Delivers
  Held _ _ := False
  read h := by
    obtain ⟨rfl, delivers⟩ := read h
    refine ⟨delivers, ?_⟩
    rintro seg (held | ⟨d, hd, -⟩)
    · exact held
    · exact absurd hd List.not_mem_nil
  write fits h := by
    rintro seg' (held | ⟨d, hd, delivers⟩)
    · exact .inl held
    · exact .inr (write fits h d hd seg' delivers)
  tick a ms := by
    rintro seg (held | ⟨d, hd, -⟩)
    · exact held
    · rw [tick] at hd
      exact absurd hd List.not_mem_nil
  setConfig := id
  setListening := id

/-- Such an adapter starts with nothing. -/
theorem Relay.fresh_direct {A D : Type} [FdAdapter A D] {Delivers : List UInt8 → TCPSegment → Prop}
    {read write tick} (a : A) :
    (Relay.direct Delivers read write tick : Relay A).Fresh (a, ([] : List D)) := by
  rintro seg (held | ⟨d, hd, -⟩)
  · exact held
  · exact List.not_mem_nil hd

/-! ## TCP over UDP -/

/-- `TCPOverUDPSocketAdapter`. -/
structure TCPOverUDPSocketAdapter where
  config : FdAdapterConfig := {}
  listening : Bool := false
  sock : FDWrapper := {}
  deriving Repr, DecidableEq

namespace TCPOverUDPSocketAdapter

/-- The default of `recv`. -/
def mtu : ℕ := 65536

/-- What `read` does to a listening adapter: all future replies go to this source. -/
def pinned (a : TCPOverUDPSocketAdapter) (source : Address) : TCPOverUDPSocketAdapter :=
  { a with config := { a.config with destination := source }, listening := false }

/-- `read`, once the datagram has been received.  The ports of the segment are not looked at. -/
def accept (a : TCPOverUDPSocketAdapter) (source : Address) (payload : List UInt8) :
    Option TCPSegment × TCPOverUDPSocketAdapter :=
  if ¬a.listening ∧ source ≠ a.config.destination then (none, a)
  else
    match ({} : TCPSegment).parse payload 0 with
    | (.noError, seg) =>
        if a.listening then
          if seg.header.syn ∧ ¬seg.header.rst then (some seg, a.pinned source) else (none, a)
        else (some seg, a)
    | _ => (none, a)

/-- A datagram has been received. -/
def counted (a : TCPOverUDPSocketAdapter) : TCPOverUDPSocketAdapter :=
  { a with sock := a.sock.registerRead }

/-- `read`. -/
def read (a : TCPOverUDPSocketAdapter) (datagram : Address × List UInt8) :
    Except AdapterFault (Option TCPSegment × TCPOverUDPSocketAdapter) :=
  if mtu < datagram.2.length then .error .oversized
  else .ok (a.counted.accept datagram.1 datagram.2)

/-- `write`: the adapter afterwards, and the address and payload of the datagram. -/
def write (a : TCPOverUDPSocketAdapter) (seg : TCPSegment) :
    Except AdapterFault (TCPOverUDPSocketAdapter × Address × List UInt8) :=
  let seg := { seg with header := { seg.header with
    sport := a.config.source.port, dport := a.config.destination.port } }
  match seg.serialize 0 with
  | .error fault => .error (.wire fault)
  | .ok payload =>
      .ok ({ a with sock := a.sock.registerWrite }, a.config.destination, payload.concatenate)

instance : FdAdapter TCPOverUDPSocketAdapter (Address × List UInt8) where
  fd a := a.sock
  config a := a.config
  setConfig a config := { a with config := config }
  setListening a listening := { a with listening := listening }
  read a d := (a.read d).map fun (out, a) => (out, a, [])
  write a seg := (a.write seg).map fun (a, d) => (a, [d])
  tick a _ := (a, [])
  bytes d := d.2

/-- The segment that a payload is, if it is one. -/
def segmentOf (payload : List UInt8) : Option TCPSegment :=
  match ({} : TCPSegment).parse payload 0 with
  | (.noError, seg) => some seg
  | _ => none

/-- **What opens a connection**: a SYN that is no RST. -/
def opening (payload : List UInt8) : Option TCPSegment :=
  (segmentOf payload).filter fun seg => seg.header.syn && !seg.header.rst

theorem segmentOf_eq_some {payload : List UInt8} {seg : TCPSegment} :
    segmentOf payload = some seg ↔ ({} : TCPSegment).parse payload 0 = (.noError, seg) := by
  rw [segmentOf]
  rcases ({} : TCPSegment).parse payload 0 with ⟨result, seg'⟩
  cases result <;> simp

/-- `read` of a connected adapter lets the segments of its peer through. -/
theorem accept_connected {a : TCPOverUDPSocketAdapter} (connected : a.listening = false)
    (source : Address) (payload : List UInt8) :
    a.accept source payload
      = (if source = a.config.destination then segmentOf payload else none, a) := by
  rw [accept]
  by_cases peer : source = a.config.destination
  · rw [if_neg (by simp [peer]), if_pos peer, segmentOf]
    rcases ({} : TCPSegment).parse payload 0 with ⟨result, seg⟩
    cases result <;> simp [connected]
  · rw [if_pos ⟨by simp [connected], peer⟩, if_neg peer]

/-- `read` of a listening adapter lets a segment through that opens a connection, and takes its
source for the peer. -/
theorem accept_listening {a : TCPOverUDPSocketAdapter} (listening : a.listening = true)
    (source : Address) (payload : List UInt8) :
    a.accept source payload
      = (opening payload, if (opening payload).isSome then a.pinned source else a) := by
  rw [accept, if_neg (by simp [listening]), opening, segmentOf]
  rcases ({} : TCPSegment).parse payload 0 with ⟨result, seg⟩
  cases result <;> simp only [Option.filter_none, Option.isSome_none, Bool.false_eq_true, if_false]
  simp only [listening, if_true, Option.filter_some]
  by_cases opens : seg.header.syn = true ∧ ¬seg.header.rst = true
  · simp [opens.1, opens.2]
  · rw [if_neg opens]
    have closed : (seg.header.syn && !seg.header.rst) = false := by simpa using opens
    simp [closed]

/-- The reads of a sequence of datagrams. -/
def reads (a : TCPOverUDPSocketAdapter) :
    List (Address × List UInt8) →
      Except AdapterFault (List (Option TCPSegment) × TCPOverUDPSocketAdapter)
  | [] => .ok ([], a)
  | d :: ds =>
      match a.read d with
      | .error fault => .error fault
      | .ok (out, a) =>
          match a.reads ds with
          | .error fault => .error fault
          | .ok (outs, a) => .ok (out :: outs, a)

/-- A datagram that fits the buffer is looked at. -/
theorem read_of_le {a : TCPOverUDPSocketAdapter} {d : Address × List UInt8}
    (small : d.2.length ≤ mtu) :
    a.read d = .ok (a.counted.accept d.1 d.2) :=
  if_neg (not_lt.mpr small)

/-- What a connected adapter returns for a datagram: the segment, if it comes from the peer. -/
def fromPeer (peer : Address) (d : Address × List UInt8) : Option TCPSegment :=
  if d.1 = peer then segmentOf d.2 else none

/-- A connected adapter stays as it is. -/
theorem reads_connected {a : TCPOverUDPSocketAdapter} (connected : a.listening = false)
    {ds : List (Address × List UInt8)} (small : ∀ d ∈ ds, d.2.length ≤ mtu) :
    ∃ sock, a.reads ds = .ok (ds.map (fromPeer a.config.destination), { a with sock := sock }) := by
  induction ds generalizing a with
  | nil => exact ⟨a.sock, rfl⟩
  | cons d ds ih =>
      obtain ⟨hd, hds⟩ := List.forall_mem_cons.mp small
      obtain ⟨sock, hrest⟩ := ih (a := a.counted) connected hds
      refine ⟨sock, ?_⟩
      rw [reads, read_of_le hd, accept_connected (a := a.counted) connected]
      simp only [hrest]
      rfl

/-- **Which datagrams are let through.**  A listening adapter rejects everything up to a segment
that opens a connection, which is returned and makes its source the peer; from then on exactly the
segments that come from this address are returned, and the configuration does not change again. -/
theorem reads_listening {a : TCPOverUDPSocketAdapter} (listening : a.listening = true)
    {ds : List (Address × List UInt8)} (small : ∀ d ∈ ds, d.2.length ≤ mtu) :
    ∃ outs a', a.reads ds = .ok (outs, a') ∧
      (((∀ d ∈ ds, opening d.2 = none) ∧ outs = ds.map (fun _ => none) ∧ a'.listening = true ∧
          a'.config = a.config) ∨
        ∃ earlier source payload seg later, ds = earlier ++ (source, payload) :: later ∧
          (∀ d ∈ earlier, opening d.2 = none) ∧ opening payload = some seg ∧
          outs = earlier.map (fun _ => none) ++ some seg :: later.map (fromPeer source) ∧
          a'.listening = false ∧ a'.config = { a.config with destination := source }) := by
  induction ds generalizing a with
  | nil =>
      exact ⟨[], a, rfl, .inl ⟨fun d hd => absurd hd List.not_mem_nil, rfl, listening, rfl⟩⟩
  | cons d ds ih =>
      obtain ⟨hd, hds⟩ := List.forall_mem_cons.mp small
      have first : a.read d
          = .ok (opening d.2, if (opening d.2).isSome then a.counted.pinned d.1 else a.counted) := by
        rw [read_of_le hd, accept_listening (a := a.counted) listening]
      cases opens : opening d.2 with
      | none =>
          rw [opens] at first
          obtain ⟨outs, a', hrest, found⟩ := ih (a := a.counted) listening hds
          refine ⟨none :: outs, a', ?_, ?_⟩
          · simp only [reads, first, Option.isSome_none, Bool.false_eq_true, if_false, hrest]
          rcases found with ⟨all, rfl, kept⟩ |
            ⟨earlier, source, payload, seg, later, rfl, hearlier, hseg, rfl, kept⟩
          · exact .inl ⟨List.forall_mem_cons.mpr ⟨opens, all⟩, rfl, kept⟩
          · exact .inr ⟨d :: earlier, source, payload, seg, later, rfl,
              List.forall_mem_cons.mpr ⟨opens, hearlier⟩, hseg, rfl, kept⟩
      | some seg =>
          rw [opens] at first
          obtain ⟨sock, hrest⟩ := reads_connected (a := a.counted.pinned d.1) rfl hds
          refine ⟨_, { a.counted.pinned d.1 with sock := sock }, ?_, .inr ⟨[], d.1, d.2, seg,
            ds, rfl, fun d hd => absurd hd List.not_mem_nil, opens, rfl, rfl, rfl⟩⟩
          simp only [reads, first, Option.isSome_some, if_true, hrest]
          rfl

/-- A SYN without payload, as the bytes of a datagram: ports 1000 and 80, window 1024. -/
def syn : List UInt8 :=
  [0x03, 0xe8, 0x00, 0x50, 0, 0, 0, 0, 0, 0, 0, 0, 0x50, 0x02, 0x04, 0x00, 0xa7, 0xc5, 0, 0]

/-- The checks leave the socket alone. -/
theorem accept_sock (a : TCPOverUDPSocketAdapter) (source : Address) (payload : List UInt8) :
    (a.accept source payload).2.sock = a.sock := by
  cases hlistening : a.listening with
  | false => rw [accept_connected hlistening]
  | true =>
      rw [accept_listening hlistening]
      dsimp only
      split <;> rfl

/-- Only the destination is ever adopted. -/
theorem accept_config (a : TCPOverUDPSocketAdapter) (source : Address) (payload : List UInt8) :
    ∃ destination, (a.accept source payload).2.config
      = { a.config with destination := destination } := by
  cases hlistening : a.listening with
  | false =>
      rw [accept_connected hlistening]
      exact ⟨a.config.destination, rfl⟩
  | true =>
      rw [accept_listening hlistening]
      dsimp only
      split
      · exact ⟨source, rfl⟩
      · exact ⟨a.config.destination, rfl⟩

theorem lawful : FdAdapter.Lawful TCPOverUDPSocketAdapter where
  counted := by
    intro a a' d out ds h
    obtain ⟨⟨out, a₁⟩, hread, hr⟩ := ok_of_map h
    cases hr
    rw [read] at hread
    split_ifs at hread
    have hsock : a'.sock = a.sock.registerRead :=
      (congrArg (fun r => r.2.sock) (Except.ok.inj hread)).symm.trans (a.counted.accept_sock _ _)
    show a'.sock.readCount ≠ _ ∧ a'.sock.closed = _
    rw [hsock]
    exact ⟨a.sock.registerRead_ne, rfl⟩
  write := by
    intro a a' seg ds h
    obtain ⟨⟨a₁, d⟩, hwrite, hr⟩ := ok_of_map h
    cases hr
    simp only [write] at hwrite
    split at hwrite
    · cases hwrite
    · cases hwrite
      rfl
  tick _ _ := rfl

/-- An adapter that listens on port 80. -/
def listener : TCPOverUDPSocketAdapter :=
  { config := { source := ⟨0, 80⟩ }, listening := true }

theorem reads_listening_syn :
    ∃ outs a', listener.reads [(⟨1, 1000⟩, [1, 2]), (⟨2, 1000⟩, syn), (⟨3, 1000⟩, syn)]
        = .ok (outs, a') ∧ a'.listening = false := by
  have small : ∀ d ∈ [(⟨1, 1000⟩, [1, 2]), (⟨2, 1000⟩, syn), (⟨3, 1000⟩, syn)],
      (d : Address × List UInt8).2.length ≤ mtu := by decide
  obtain ⟨outs, a', hreads, found⟩ := reads_listening (a := listener) rfl small
  rcases found with ⟨all, -⟩ | ⟨_, _, _, _, _, -, -, -, -, connected, -⟩
  · have opens : (opening syn).isSome = true := by decide +kernel
    rw [all (⟨2, 1000⟩, syn) (by simp)] at opens
    cases opens
  · exact ⟨outs, a', hreads, connected⟩

/-- A segment that is returned is the one in the payload. -/
theorem segmentOf_of_read {a a' : TCPOverUDPSocketAdapter} {d : Address × List UInt8}
    {seg : TCPSegment} (h : a.read d = .ok (some seg, a')) : segmentOf d.2 = some seg := by
  rw [read] at h
  split_ifs at h
  have houts : (a.counted.accept d.1 d.2).1 = some seg := congrArg Prod.fst (Except.ok.inj h)
  cases hlistening : a.counted.listening with
  | true =>
      rw [accept_listening hlistening] at houts
      exact (Option.filter_eq_some_iff.mp houts).1
  | false =>
      rw [accept_connected hlistening] at houts
      dsimp only at houts
      split_ifs at houts
      exact houts

/-- What is put into a datagram comes out of it. -/
theorem segmentOf_write {a a' : TCPOverUDPSocketAdapter} {seg : TCPSegment} (fits : seg.Fits)
    {d : Address × List UInt8} (h : a.write seg = .ok (a', d)) :
    ∃ seg', segmentOf d.2 = some seg' ∧ seg.SameMessage seg' := by
  have size := fits.size
  obtain ⟨payload, hpayload, -, hparse⟩ := TCPSegment.parse_serialize
    { seg with header := { seg.header with
      sport := a.config.source.port, dport := a.config.destination.port } }
    (by decide : 0 < 2 ^ 20) fits.doff_ge fits.doff_le (by dsimp only; omega) {}
  simp only [write, hpayload] at h
  cases h
  exact ⟨_, segmentOf_eq_some.mpr hparse, rfl, _, _, _, rfl⟩

/-- What `write` puts into a datagram is read as the same message. -/
def relay : Relay TCPOverUDPSocketAdapter :=
  .direct (fun payload seg => segmentOf payload = some seg)
    (fun h => by
      obtain ⟨⟨out, a₁⟩, hread, hr⟩ := ok_of_map h
      cases hr
      refine ⟨rfl, fun seg hseg => ?_⟩
      cases hseg
      exact segmentOf_of_read hread)
    (fun fits h d hd seg' delivers => by
      obtain ⟨⟨a₁, d₁⟩, hwrite, hr⟩ := ok_of_map h
      cases hr
      cases List.mem_singleton.mp hd
      obtain ⟨seg₁, hseg₁, same⟩ := segmentOf_write fits hwrite
      cases hseg₁.symm.trans delivers
      exact same)
    fun _ _ => rfl

end TCPOverUDPSocketAdapter

/-! ## Losses -/

namespace FdAdapter

/-- A call of an adapter, of those that can change it.  A socket makes no others, so a result
about all lists of calls is one about any use of an adapter. -/
inductive Call (D : Type) where
  | read (d : D)
  | write (seg : TCPSegment)
  | tick (ms : ℕ)
  | setConfig (config : FdAdapterConfig)
  | setListening (listening : Bool)

namespace Call

variable {D : Type}

/-- Is this a call of `write`? -/
def isWrite : Call D → Bool
  | write _ => true
  | _ => false

/-- **Some writes left out.**  All other calls are kept, in their places; so the inner adapter
sees every read and all of the time. -/
def Thinned (kept calls : List (Call D)) : Prop :=
  kept.Sublist calls ∧ kept.filter (!·.isWrite) = calls.filter (!·.isWrite)

/-- None left out. -/
theorem Thinned.refl (calls : List (Call D)) : Thinned calls calls :=
  ⟨.refl calls, rfl⟩

/-- One more call kept. -/
theorem Thinned.cons (call : Call D) {kept calls : List (Call D)} (h : Thinned kept calls) :
    Thinned (call :: kept) (call :: calls) :=
  ⟨h.1.cons_cons call, by simp only [List.filter_cons, h.2]⟩

/-- One more write left out. -/
theorem Thinned.skip {seg : TCPSegment} {kept calls : List (Call D)} (h : Thinned kept calls) :
    Thinned kept (.write seg :: calls) :=
  ⟨h.1.cons _, by rw [h.2]; rfl⟩

end Call

variable {A D : Type} [FdAdapter A D]

/-- One call: the segment that was read, the adapter afterwards, and what was put on the
device. -/
def call (a : A) : Call D → Except AdapterFault (Option TCPSegment × A × List D)
  | .read d => read a d
  | .write seg => (write a seg).map fun (a, ds) => (none, a, ds)
  | .tick ms => .ok (none, (tick a ms).1, (tick a ms).2)
  | .setConfig config => .ok (none, setConfig a config, [])
  | .setListening listening => .ok (none, setListening a listening, [])

/-- A sequence of calls: the segments that were read, the adapter afterwards, and what was put on
the device. -/
def calls (a : A) : List (Call D) → Except AdapterFault (List TCPSegment × A × List D)
  | [] => .ok ([], a, [])
  | c :: cs =>
      match call a c with
      | .error fault => .error fault
      | .ok (out, a, ds) =>
          (calls a cs).map fun (received, a, sent) => (out.toList ++ received, a, ds ++ sent)

end FdAdapter

/-- The rate that `_should_drop` reads. -/
def FdAdapterConfig.loss (config : FdAdapterConfig) (uplink : Bool) : UInt16 :=
  if uplink then config.lossRateUp else config.lossRateDn

/-- What a lossy adapter needs of the configuration of the one inside: it is the one assigned, and
the adapter itself does not touch the loss rates. -/
structure FdAdapter.Configured (A : Type) {D : Type} [FdAdapter A D] : Prop where
  assigned : ∀ (a : A) (config : FdAdapterConfig),
    FdAdapter.config (FdAdapter.setConfig a config) = config
  setListening : ∀ (a : A) (listening uplink : Bool),
    (FdAdapter.config (FdAdapter.setListening a listening)).loss uplink
      = (FdAdapter.config a).loss uplink
  read : ∀ {a a' : A} {d : D} {out : Option TCPSegment} {ds : List D},
    FdAdapter.read a d = .ok (out, a', ds) →
      ∀ uplink, (FdAdapter.config a').loss uplink = (FdAdapter.config a).loss uplink
  write : ∀ {a a' : A} {seg : TCPSegment} {ds : List D}, FdAdapter.write a seg = .ok (a', ds) →
    ∀ uplink, (FdAdapter.config a').loss uplink = (FdAdapter.config a).loss uplink
  tick : ∀ (a : A) (ms : ℕ) (uplink : Bool),
    (FdAdapter.config (FdAdapter.tick a ms).1).loss uplink = (FdAdapter.config a).loss uplink

namespace FdAdapter

variable {A D : Type} [FdAdapter A D]

/-- **No losses in one direction**: its rate is zero in the configuration and in every one that is
assigned. -/
def Lossless (uplink : Bool) (config : FdAdapterConfig) (cs : List (Call D)) : Prop :=
  config.loss uplink = 0 ∧ ∀ config', Call.setConfig config' ∈ cs → config'.loss uplink = 0

/-- There are none after a call either. -/
theorem Configured.lossless_tail (configured : Configured A) {a a' : A} {c : Call D}
    {out : Option TCPSegment} {ds : List D} (called : call a c = .ok (out, a', ds)) {uplink : Bool}
    {cs : List (Call D)} (h : Lossless uplink (config a) (c :: cs)) :
    Lossless uplink (config a') cs := by
  refine ⟨?_, fun config' later => h.2 config' (List.mem_cons_of_mem c later)⟩
  cases c with
  | setConfig config' =>
      cases called
      rw [configured.assigned]
      exact h.2 config' List.mem_cons_self
  | read d => exact (configured.read called uplink).trans h.1
  | write seg =>
      obtain ⟨r, hwrite, hr⟩ := ok_of_map called
      cases hr
      exact (configured.write hwrite uplink).trans h.1
  | tick ms =>
      cases called
      exact (configured.tick a ms uplink).trans h.1
  | setListening listening =>
      cases called
      exact (configured.setListening a listening uplink).trans h.1

end FdAdapter

theorem TCPOverUDPSocketAdapter.configured : FdAdapter.Configured TCPOverUDPSocketAdapter where
  assigned _ _ := rfl
  setListening _ _ _ := rfl
  read := by
    intro a a' d out ds h uplink
    obtain ⟨⟨out, a₁⟩, hread, hr⟩ := ok_of_map h
    cases hr
    rw [TCPOverUDPSocketAdapter.read] at hread
    split_ifs at hread
    obtain ⟨destination, hconfig⟩ := a.counted.accept_config d.1 d.2
    rw [Except.ok.inj hread] at hconfig
    show a'.config.loss uplink = _
    rw [show a'.config = _ from hconfig]
    rfl
  write := by
    intro a a' seg ds h uplink
    obtain ⟨⟨a₁, d⟩, hwrite, hr⟩ := ok_of_map h
    cases hr
    simp only [TCPOverUDPSocketAdapter.write] at hwrite
    split at hwrite
    · cases hwrite
    · cases hwrite
      rfl
  tick _ _ _ := rfl

/-- `LossyFdAdapter`.  The loss rates are those of the configuration of the adapter inside, where
`config_mut()` puts them.  `rand` is what the generator returns, call by call, and `draws` counts
the calls. -/
structure LossyFdAdapter (A : Type) where
  rand : ℕ → UInt32
  draws : ℕ := 0
  adapter : A

namespace LossyFdAdapter

variable {A D : Type}

/-- The adapter after some calls of the generator, with another adapter inside. -/
def moved (a : LossyFdAdapter A) (draws : ℕ) (adapter : A) : LossyFdAdapter A :=
  { a with draws := draws, adapter := adapter }

/-- **What the inner adapter does**, with some of the segments that it reads dropped unless it is
`lossless`.  An exception of the inner adapter is one of the outer. -/
inductive Follows (lossless : Prop) :
    Except AdapterFault (List TCPSegment × LossyFdAdapter A × List D) →
      Except AdapterFault (List TCPSegment × A × List D) → Prop
  | error (fault : AdapterFault) : Follows lossless (.error fault) (.error fault)
  | ok {received received' : List TCPSegment} {a : LossyFdAdapter A} {sent : List D}
      (sublist : received.Sublist received') (all : lossless → received = received') :
      Follows lossless (.ok (received, a, sent)) (.ok (received', a.adapter, sent))

/-- A stronger condition on the losses. -/
theorem Follows.mono {before after : Prop} (hafter : before → after)
    {outer : Except AdapterFault (List TCPSegment × LossyFdAdapter A × List D)}
    {inner : Except AdapterFault (List TCPSegment × A × List D)} (h : Follows after outer inner) :
    Follows before outer inner := by
  cases h with
  | error fault => exact .error fault
  | ok sublist all => exact .ok sublist fun h => all (hafter h)

/-- One more call before. -/
theorem Follows.cons {before after : Prop} {drop : Bool} (hdrop : before → drop = false)
    (hafter : before → after) (out : Option TCPSegment) (ds : List D)
    {outer : Except AdapterFault (List TCPSegment × LossyFdAdapter A × List D)}
    {inner : Except AdapterFault (List TCPSegment × A × List D)} (h : Follows after outer inner) :
    Follows before
      (outer.map fun (received, a, sent) =>
        ((if drop then none else out).toList ++ received, a, ds ++ sent))
      (inner.map fun (received, a, sent) => (out.toList ++ received, a, ds ++ sent)) := by
  cases h with
  | error fault => exact .error fault
  | ok sublist all =>
      refine .ok (List.Sublist.append ?_ sublist) fun h => ?_
      · cases drop with
        | true => exact List.nil_sublist _
        | false => exact List.Sublist.refl _
      · rw [hdrop h, all (hafter h)]
        rfl

variable [FdAdapter A D]

/-- `_should_drop`: the answer, and the adapter afterwards. -/
def shouldDrop (a : LossyFdAdapter A) (uplink : Bool) : Bool × LossyFdAdapter A :=
  let loss := (FdAdapter.config a.adapter).loss uplink
  if loss ≠ 0 then ((a.rand a.draws).toUInt16 < loss, { a with draws := a.draws + 1 })
  else (false, a)

/-- The decision leaves the inner adapter alone, and nothing is dropped at rate zero. -/
theorem shouldDrop_spec (a : LossyFdAdapter A) (uplink : Bool) :
    ∃ drop draws, a.shouldDrop uplink = (drop, a.moved draws a.adapter) ∧
      ((FdAdapter.config a.adapter).loss uplink = 0 → drop = false) := by
  rw [shouldDrop]
  by_cases hloss : (FdAdapter.config a.adapter).loss uplink = 0
  · exact ⟨false, a.draws, if_neg (not_not.mpr hloss), fun _ => rfl⟩
  · exact ⟨_, a.draws + 1, if_pos hloss, fun h => absurd h hloss⟩

/-- `read`: the device is read whether the segment is dropped or not. -/
def read (a : LossyFdAdapter A) (d : D) :
    Except AdapterFault (Option TCPSegment × LossyFdAdapter A × List D) :=
  match FdAdapter.read a.adapter d with
  | .error fault => .error fault
  | .ok (ret, adapter, ds) =>
      let (drop, a) := { a with adapter := adapter }.shouldDrop false
      .ok (if drop then none else ret, a, ds)

/-- `write`. -/
def write (a : LossyFdAdapter A) (seg : TCPSegment) :
    Except AdapterFault (LossyFdAdapter A × List D) :=
  let (drop, a) := a.shouldDrop true
  if drop then .ok (a, [])
  else (FdAdapter.write a.adapter seg).map fun (adapter, ds) => ({ a with adapter := adapter }, ds)

instance : FdAdapter (LossyFdAdapter A) D where
  fd a := FdAdapter.fd a.adapter
  config a := FdAdapter.config a.adapter
  setConfig a config := { a with adapter := FdAdapter.setConfig a.adapter config }
  setListening a listening := { a with adapter := FdAdapter.setListening a.adapter listening }
  read := read
  write := write
  tick a ms := ({ a with adapter := (FdAdapter.tick a.adapter ms).1 }, (FdAdapter.tick a.adapter ms).2)
  bytes := FdAdapter.bytes A

/-- A segment is dropped, or written by the inner adapter. -/
theorem write_cases (a : LossyFdAdapter A) (seg : TCPSegment) :
    ∃ draws, ((FdAdapter.config a.adapter).loss true ≠ 0 ∧
        a.write seg = .ok (a.moved draws a.adapter, ([] : List D))) ∨
      a.write seg = (FdAdapter.write a.adapter seg).map
        fun (r : A × List D) => (a.moved draws r.1, r.2) := by
  obtain ⟨drop, draws, hdrop, hzero⟩ := a.shouldDrop_spec true
  refine ⟨draws, ?_⟩
  simp only [write, hdrop]
  cases drop with
  | true => exact .inl ⟨fun h => (by simpa using hzero h), rfl⟩
  | false => exact .inr rfl

/-- The inner adapter reads, and the segment may be dropped.  The rate is looked up after the
read. -/
theorem read_cases (a : LossyFdAdapter A) (d : D) :
    ∃ drop draws, (∀ ret adapter ds, FdAdapter.read a.adapter d = .ok (ret, adapter, ds) →
        (FdAdapter.config adapter).loss false = 0 → drop = false) ∧
      a.read d = (FdAdapter.read a.adapter d).map fun (r : Option TCPSegment × A × List D) =>
        (if drop then none else r.1, a.moved draws r.2.1, r.2.2) := by
  rw [read]
  cases FdAdapter.read a.adapter d with
  | error fault => exact ⟨false, a.draws, fun _ _ _ _ _ => rfl, rfl⟩
  | ok r =>
      obtain ⟨drop, draws, hdrop, hzero⟩ := { a with adapter := r.2.1 }.shouldDrop_spec false
      refine ⟨drop, draws, fun ret adapter ds same zero => hzero ?_, ?_⟩
      · rw [Except.ok.inj same]
        exact zero
      · simp only [hdrop]
        rfl

open FdAdapter (Call call calls Configured Lossless)

/-- One call: a write that is left out, or the call of the inner adapter, whose segment may be
dropped. -/
theorem call_cases (configured : Configured A) (a : LossyFdAdapter A) (c : Call D) :
    ((FdAdapter.config a.adapter).loss true ≠ 0 ∧ (∃ seg, c = .write seg) ∧
        ∃ draws, call a c = .ok (none, a.moved draws a.adapter, [])) ∨
      ∃ drop draws, ((FdAdapter.config a.adapter).loss false = 0 → drop = false) ∧
        call a c = (call a.adapter c).map fun (r : Option TCPSegment × A × List D) =>
          (if drop then none else r.1, a.moved draws r.2.1, r.2.2) := by
  cases c with
  | read d =>
      obtain ⟨drop, draws, hdrop, hread⟩ := a.read_cases d
      cases inner : FdAdapter.read a.adapter d with
      | error fault =>
          rw [inner] at hread
          refine .inr ⟨false, draws, fun _ => rfl, hread.trans ?_⟩
          simp only [call, inner, Except.map]
      | ok r =>
          refine .inr ⟨drop, draws, fun zero => hdrop _ _ _ inner ?_, hread⟩
          exact (configured.read inner false).trans zero
  | write seg =>
      obtain ⟨draws, ⟨lossy, hwrite⟩ | hwrite⟩ := write_cases (D := D) a seg
      · exact .inl ⟨lossy, ⟨seg, rfl⟩, draws, congrArg (Except.map _) hwrite⟩
      · refine .inr ⟨false, draws, fun _ => rfl, ?_⟩
        refine (congrArg (Except.map _) hwrite).trans ?_
        simp only [call]
        cases FdAdapter.write a.adapter seg <;> rfl
  | tick ms => exact .inr ⟨false, a.draws, fun _ => rfl, rfl⟩
  | setConfig config => exact .inr ⟨false, a.draws, fun _ => rfl, rfl⟩
  | setListening listening => exact .inr ⟨false, a.draws, fun _ => rfl, rfl⟩

/-- **A lossy adapter is its inner adapter with losses.**  What it puts on the device, what becomes
of the adapter inside, and how it fails, is what this adapter would do by itself if some of the
writes were left out; of the segments that this adapter would return some are not passed on.
Nothing is left out as long as the rate of the uplink is zero, and nothing kept back as long as that
of the downlink is: at the start, and in every configuration that is assigned. -/
theorem calls_thinned (configured : Configured A) (a : LossyFdAdapter A) (cs : List (Call D)) :
    ∃ kept, Call.Thinned kept cs ∧ (Lossless true (FdAdapter.config a) cs → kept = cs) ∧
      Follows (Lossless false (FdAdapter.config a) cs) (calls a cs) (calls a.adapter kept) := by
  induction cs generalizing a with
  | nil => exact ⟨[], .refl [], fun _ => rfl, .ok (.refl []) fun _ => rfl⟩
  | cons c cs ih =>
      rcases call_cases configured a c with
        ⟨lossy, ⟨seg, rfl⟩, draws, hcall⟩ | ⟨drop, draws, hdrop, hcall⟩
      · -- the write is left out, and the adapter inside is what it was
        obtain ⟨kept, thinned, -, follows⟩ := ih (a.moved draws a.adapter)
        refine ⟨kept, thinned.skip, fun h => absurd h.1 lossy, ?_⟩
        have same : calls a (Call.write seg :: cs) = calls (a.moved draws a.adapter) cs := by
          rw [calls, hcall]
          dsimp only
          rcases calls (a.moved draws a.adapter) cs with fault | ⟨received, a', sent⟩ <;> rfl
        rw [same]
        exact follows.mono fun h => ⟨h.1, fun config' later => h.2 config' (.tail _ later)⟩
      · cases hinner : call a.adapter c with
        | error fault =>
            refine ⟨c :: cs, .refl _, fun _ => rfl, ?_⟩
            rw [hinner] at hcall
            simp only [calls, hcall, hinner, Except.map]
            exact .error fault
        | ok r =>
            obtain ⟨kept, thinned, whole, follows⟩ := ih (a.moved draws r.2.1)
            refine ⟨c :: kept, thinned.cons c, fun h => ?_, ?_⟩
            · exact congrArg (c :: ·) (whole (configured.lossless_tail hinner h))
            · rw [hinner] at hcall
              simp only [calls, hcall, hinner, Except.map]
              exact follows.cons (fun h => hdrop h.1) (configured.lossless_tail hinner) r.1 r.2.2

/-- A lossy adapter over UDP whose generator returns nothing but zeros, as it is made. -/
def zeros : LossyFdAdapter TCPOverUDPSocketAdapter := { rand := fun _ => 0, adapter := {} }

/-- What `-Lu 0.5` configures. -/
def lossyUplink : FdAdapterConfig :=
  { source := ⟨1, 1000⟩, destination := ⟨2, 80⟩, lossRateUp := 32767 }

/-- A segment is written before the rate is set and one after it, and a SYN of the peer arrives. -/
def lossyCalls : List (Call (Address × List UInt8)) :=
  [.write {}, .setConfig lossyUplink, .write {}, .read (⟨2, 80⟩, TCPOverUDPSocketAdapter.syn)]

theorem calls_thinned_uplink : ∃ kept, Call.Thinned kept lossyCalls ∧
    Follows True (calls zeros lossyCalls) (calls zeros.adapter kept) := by
  obtain ⟨kept, thinned, -, follows⟩ :=
    calls_thinned TCPOverUDPSocketAdapter.configured zeros lossyCalls
  refine ⟨kept, thinned, follows.mono fun _ => ⟨rfl, ?_⟩⟩
  simp only [lossyCalls, List.mem_cons, reduceCtorEq, Call.setConfig.injEq, List.not_mem_nil,
    or_false, false_or, forall_eq]
  rfl

theorem lawful (inner : FdAdapter.Lawful A) : FdAdapter.Lawful (LossyFdAdapter A) where
  counted := by
    intro a a' d out ds h
    obtain ⟨drop, draws, -, hread⟩ := a.read_cases d
    obtain ⟨⟨ret, adapter, ds'⟩, hinner, hr⟩ := ok_of_map (hread.symm.trans h)
    cases hr
    exact inner.counted hinner
  write := by
    intro a a' seg ds h
    obtain ⟨draws, ⟨-, hwrite⟩ | hwrite⟩ := write_cases (D := D) a seg
    · cases hwrite.symm.trans h
      rfl
    · obtain ⟨⟨adapter, ds'⟩, hinner, hr⟩ := ok_of_map (hwrite.symm.trans h)
      cases hr
      exact inner.write hinner
  tick a ms := inner.tick a.adapter ms

/-- Losses leave a relay a relay. -/
def relay (inner : Relay A) : Relay (LossyFdAdapter A) where
  Delivers := inner.Delivers
  Held a := inner.Held a.adapter
  read := by
    intro a a' d out ds h
    obtain ⟨drop, draws, -, hread⟩ := a.read_cases d
    obtain ⟨⟨ret, adapter, ds'⟩, hinner, hr⟩ := ok_of_map (hread.symm.trans h)
    cases hr
    obtain ⟨delivers, held⟩ := inner.read hinner
    refine ⟨fun seg hseg => delivers seg ?_, held⟩
    split_ifs at hseg
    exact hseg
  write := by
    intro a a' seg ds fits h seg' hseg'
    obtain ⟨draws, ⟨-, hwrite⟩ | hwrite⟩ := write_cases (D := D) a seg
    · cases hwrite.symm.trans h
      rcases hseg' with held | ⟨d, hd, -⟩
      · exact .inl held
      · exact absurd hd List.not_mem_nil
    · obtain ⟨⟨adapter, ds'⟩, hinner, hr⟩ := ok_of_map (hwrite.symm.trans h)
      cases hr
      exact inner.write fits hinner seg' hseg'
  tick a ms seg h := inner.tick a.adapter ms seg h
  setConfig h := inner.setConfig h
  setListening h := inner.setListening h

end LossyFdAdapter

end Sponge
