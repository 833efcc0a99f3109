import Sponge.WrappingIntegers

/-!
# TCP segments

Embedding of the data of `libsponge/tcp_helpers/tcp_header.hh` and
`libsponge/tcp_helpers/tcp_segment.{hh,cc}`.  A segment is a header and a payload;
the payload is a `std::string`, so its length is at most `maxStringSize`
(`TCPSegment.WellTyped`).

The checksum and the offset are part of the header, because the parser reads them and the
serializer writes them; a segment that the sender builds carries the defaults.  How the
header is laid out on the wire is the business of `TCPSegment.Wire`.
-/

namespace Sponge

/-- `TCPHeader`, with the source's defaults. -/
structure TCPHeader where
  sport : UInt16 := 0
  dport : UInt16 := 0
  seqno : WrappingInt32 := ⟨0⟩
  ackno : WrappingInt32 := ⟨0⟩
  /-- `LENGTH / 4`, for a header without options. -/
  doff : UInt8 := 5
  urg : Bool := false
  ack : Bool := false
  psh : Bool := false
  rst : Bool := false
  syn : Bool := false
  fin : Bool := false
  win : UInt16 := 0
  cksum : UInt16 := 0
  uptr : UInt16 := 0
  deriving Repr, DecidableEq

/-- `TCPSegment`. -/
structure TCPSegment where
  header : TCPHeader := {}
  payload : List UInt8 := []
  deriving Repr, DecidableEq

namespace TCPSegment

/-- The payload and one sequence number each for SYN and FIN. -/
def lengthInSequenceSpace (seg : TCPSegment) : ℕ :=
  seg.payload.length + (if seg.header.syn then 1 else 0) + (if seg.header.fin then 1 else 0)

/-- Every byte of the payload takes a sequence number. -/
theorem length_payload_le (seg : TCPSegment) :
    seg.payload.length ≤ seg.lengthInSequenceSpace := by
  unfold lengthInSequenceSpace
  omega

/-- The payload is a `std::string`. -/
def WellTyped (seg : TCPSegment) : Prop := seg.payload.length ≤ maxStringSize

instance (seg : TCPSegment) : Decidable seg.WellTyped :=
  inferInstanceAs (Decidable (_ ≤ _))

end TCPSegment

end Sponge
