import Sponge.Library.Octets
import Mathlib.Tactic.Common

/-!
# Buffers, parsing and unparsing

Embedding of `libsponge/util/buffer.{hh,cc}` and `libsponge/util/parser.{hh,cc}`.

A `Buffer` is its bytes.  A `BufferList` keeps its division into buffers, because the
conversion to a `Buffer` depends on it (`BufferList.toBuffer`).  A `NetParser` carries,
besides the bytes that are left, an error that no later operation clears; the parsers of
the headers report some of their errors there and some of them only in their result.

Main results:

* `Consumed` — where a parser stands after `k` bytes: either `k` bytes were there and have
  been removed, or the parser's error is set.  Every operation moves it on
  (`Consumed.parseInt`, `Consumed.removePrefix`).
* `u8_unparse`, `u16_unparse`, `u32_unparse` — what `NetUnparser` wrote, `NetParser` reads.
* `exists_u8`, `exists_u16`, `exists_u32` — whatever `NetParser` reads, `NetUnparser` could
  have written.

### Numbers and bytes

`_parse_int` and `_unparse_int` are loops over bytes, one with shifts and sums and one with
shifts and masks.  Both are compared with `Octets.decode` and `Octets.encode` of the library
once, and after that no proof looks at a shift again: what the headers need is
`parseInt_unparse` in one direction and `exists_unparseInt` in the other.

### Errors that stay

A parser that ran short keeps its error and its bytes, and returns zeros from then on.  A
sequence of reads is therefore described by the number of bytes it asks for in all: either
these were there, or there is an error at the end (`Consumed`).  Where in the sequence it
occurred does not matter.
-/

namespace Sponge

/-- The exceptions thrown while packets are built or taken apart. -/
inductive WireFault where
  /-- A `BufferList` of several buffers was used as one `Buffer`. -/
  | multiBuffer
  /-- `IPv4Header::serialize`. -/
  | wrongIPVersion
  | ipHeaderTooShort
  /-- `IPv4Datagram::serialize`. -/
  | payloadSize
  /-- `TCPHeader::serialize`. -/
  | tcpHeaderTooShort
  /-- `ARPMessage::serialize`. -/
  | unsupportedARP
  deriving Repr, DecidableEq

/-- The text carried by the exception. -/
def WireFault.what : WireFault → String
  | .multiBuffer =>
      "BufferList: please use concatenate() to combine a multi-Buffer BufferList into one Buffer"
  | .wrongIPVersion => "wrong IP version"
  | .ipHeaderTooShort => "IP header too short"
  | .payloadSize => "IPv4Datagram::serialize: payload is wrong size"
  | .tcpHeaderTooShort => "TCP header too short"
  | .unsupportedARP =>
      "ARPMessage::serialize(): unsupported field combination (must be Ethernet/IP, and request or reply)"

/-! ## Buffer lists -/

/-- `BufferList`. -/
abbrev BufferList := List (List UInt8)

namespace BufferList

/-- The bytes of all the buffers. -/
def concatenate (buffers : BufferList) : List UInt8 := buffers.flatten

/-- The number of bytes in all. -/
def size (buffers : BufferList) : ℕ := (buffers.map List.length).sum

/-- `operator Buffer`. -/
def toBuffer : BufferList → Except WireFault (List UInt8)
  | [] => .ok []
  | [buffer] => .ok buffer
  | _ => .error .multiBuffer

/-- No byte is lost between the buffers. -/
theorem size_eq (buffers : BufferList) : buffers.size = buffers.concatenate.length := by
  rw [size, concatenate, List.length_flatten]

end BufferList

/-! ## Parsing -/

/-- `ParseResult`. -/
inductive ParseResult where
  | noError
  | badChecksum
  | packetTooShort
  | wrongIPVersion
  | headerTooShort
  | truncatedPacket
  | unsupported
  deriving Repr, DecidableEq

/-- `NetParser`. -/
structure NetParser where
  buffer : List UInt8
  error : ParseResult := .noError
  deriving Repr, DecidableEq

namespace NetParser

/-- `_check_size`; it overwrites an error that is already there. -/
def checkSize (p : NetParser) (size : ℕ) : NetParser :=
  if p.buffer.length < size then { p with error := .packetTooShort } else p

/-- `_parse_int`, for an integer type of `len` bytes. -/
def parseInt (p : NetParser) (len : ℕ) : ℕ × NetParser :=
  let p := p.checkSize len
  if p.error ≠ .noError then (0, p)
  else ((p.buffer.take len).foldl (fun ret byte => (ret <<< 8) + byte.toNat) 0,
    { p with buffer := p.buffer.drop len })

def u8 (p : NetParser) : UInt8 × NetParser :=
  let (n, p) := p.parseInt 1
  (UInt8.ofNat n, p)

def u16 (p : NetParser) : UInt16 × NetParser :=
  let (n, p) := p.parseInt 2
  (UInt16.ofNat n, p)

def u32 (p : NetParser) : UInt32 × NetParser :=
  let (n, p) := p.parseInt 4
  (UInt32.ofNat n, p)

/-- `remove_prefix`. -/
def removePrefix (p : NetParser) (n : ℕ) : NetParser :=
  let p := p.checkSize n
  if p.error ≠ .noError then p else { p with buffer := p.buffer.drop n }

end NetParser

/-- The number that stands in `len` bytes from an offset on. -/
def fieldAt (b : List UInt8) (offset len : ℕ) : ℕ := Octets.decode ((b.drop offset).take len)

/-- **Where a parser stands** after `k` bytes of `b` were asked for. -/
inductive Consumed (b : List UInt8) (k : ℕ) : NetParser → Prop
  /-- They were there, and the rest is left. -/
  | all (enough : k ≤ b.length) : Consumed b k ⟨b.drop k, .noError⟩
  /-- They were not, and the parser says so. -/
  | short {p : NetParser} (tooFew : b.length < k) (failed : p.error ≠ .noError) : Consumed b k p

namespace Consumed

variable {b : List UInt8} {k : ℕ} {p : NetParser}

/-- Nothing was asked for. -/
theorem start (b : List UInt8) : Consumed b 0 ⟨b, .noError⟩ := .all (Nat.zero_le _)

/-- The error says whether there were enough bytes. -/
theorem noError_iff (h : Consumed b k p) : p.error = .noError ↔ k ≤ b.length := by
  cases h with
  | all enough => exact ⟨fun _ => enough, fun _ => rfl⟩
  | short tooFew failed => exact ⟨fun h => absurd h failed, fun h => absurd h (by omega)⟩

/-- If there were, this is the parser. -/
theorem eq_of_le (h : Consumed b k p) (enough : k ≤ b.length) : p = ⟨b.drop k, .noError⟩ := by
  cases h with
  | all => rfl
  | short tooFew => omega

/-- An error that is set stays set. -/
theorem checkSize_error {n : ℕ} (failed : p.error ≠ .noError) :
    (p.checkSize n).error ≠ .noError := by
  rw [NetParser.checkSize]
  split_ifs
  · exact fun h => nomatch h
  · exact failed

/-- Enough bytes are left. -/
theorem checkSize_of_le {n : ℕ} (h : k + n ≤ b.length) :
    NetParser.checkSize ⟨b.drop k, .noError⟩ n = ⟨b.drop k, .noError⟩ := by
  refine if_neg ?_
  rw [List.length_drop]
  omega

/-- Too few are left. -/
theorem checkSize_of_lt {n : ℕ} (h : b.length < k + n) (hn : k ≤ b.length) :
    (NetParser.checkSize ⟨b.drop k, .noError⟩ n).error ≠ .noError := by
  have short : (b.drop k).length < n := by
    rw [List.length_drop]
    omega
  rw [NetParser.checkSize, if_pos short]
  exact fun h => nomatch h

/-- Skipping bytes moves a parser on. -/
theorem removePrefix (h : Consumed b k p) (n : ℕ) : Consumed b (k + n) (p.removePrefix n) := by
  cases h with
  | all enough =>
      by_cases hn : k + n ≤ b.length
      · rw [NetParser.removePrefix, checkSize_of_le hn, if_neg (fun h => h rfl), List.drop_drop]
        exact .all hn
      · have failed := checkSize_of_lt (Nat.lt_of_not_le hn) enough
        rw [NetParser.removePrefix, if_pos failed]
        exact .short (Nat.lt_of_not_le hn) failed
  | short tooFew failed =>
      rw [NetParser.removePrefix, if_pos (checkSize_error failed)]
      exact .short (by omega) (checkSize_error failed)

/-- Reading an integer removes its bytes. -/
theorem parseInt_snd (p : NetParser) (len : ℕ) : (p.parseInt len).2 = p.removePrefix len := by
  rw [NetParser.parseInt, NetParser.removePrefix]
  split_ifs <;> rfl

/-- And so does reading a number. -/
theorem parseInt (h : Consumed b k p) (len : ℕ) : Consumed b (k + len) (p.parseInt len).2 := by
  rw [parseInt_snd]
  exact h.removePrefix len

/-- The integer read is the one that stands there. -/
theorem parseInt_fst {len : ℕ} (h : Consumed b k p) (enough : k + len ≤ b.length) :
    (p.parseInt len).1 = fieldAt b k len := by
  rw [h.eq_of_le (by omega), NetParser.parseInt, checkSize_of_le enough, if_neg (fun h => h rfl)]
  simp only [Nat.shiftLeft_eq, fieldAt, Octets.decode]

/-- A field of `len` bytes is a number of `len` bytes. -/
theorem fieldAt_lt (b : List UInt8) (k len : ℕ) : fieldAt b k len < 256 ^ len :=
  (Octets.decode_lt _).trans_le (Nat.pow_le_pow_right (by decide) (List.length_take_le _ _))

/-- One byte is read, or the parser's error is set. -/
theorem u8 (h : Consumed b k p) : ∃ val p', p.u8 = (val, p') ∧ Consumed b (k + 1) p' ∧
    (k + 1 ≤ b.length → val.toNat = fieldAt b k 1) := by
  refine ⟨UInt8.ofNat (p.parseInt 1).1, (p.parseInt 1).2, rfl, h.parseInt 1, fun enough => ?_⟩
  rw [UInt8.toNat_ofNat', h.parseInt_fst enough]
  exact Nat.mod_eq_of_lt (fieldAt_lt b k 1)

/-- The same for two bytes. -/
theorem u16 (h : Consumed b k p) : ∃ val p', p.u16 = (val, p') ∧ Consumed b (k + 2) p' ∧
    (k + 2 ≤ b.length → val.toNat = fieldAt b k 2) := by
  refine ⟨UInt16.ofNat (p.parseInt 2).1, (p.parseInt 2).2, rfl, h.parseInt 2, fun enough => ?_⟩
  rw [UInt16.toNat_ofNat', h.parseInt_fst enough]
  exact Nat.mod_eq_of_lt (fieldAt_lt b k 2)

/-- The same for four bytes. -/
theorem u32 (h : Consumed b k p) : ∃ val p', p.u32 = (val, p') ∧ Consumed b (k + 4) p' ∧
    (k + 4 ≤ b.length → val.toNat = fieldAt b k 4) := by
  refine ⟨UInt32.ofNat (p.parseInt 4).1, (p.parseInt 4).2, rfl, h.parseInt 4, fun enough => ?_⟩
  rw [UInt32.toNat_ofNat', h.parseInt_fst enough]
  exact Nat.mod_eq_of_lt (fieldAt_lt b k 4)

end Consumed

/-! ## Unparsing -/

namespace NetUnparser

/-- `_unparse_int`, for an integer type of `len` bytes: the bytes it appends. -/
def unparseInt (len val : ℕ) : List UInt8 :=
  (List.range len).map fun i => UInt8.ofNat ((val >>> ((len - i - 1) * 8)) &&& 0xff)

/-- `std::string::resize`: cut off, or filled up with zeros. -/
def resize (s : List UInt8) (n : ℕ) : List UInt8 := s.take n ++ List.replicate (n - s.length) 0

def u8 (val : UInt8) : List UInt8 := unparseInt 1 val.toNat

def u16 (val : UInt16) : List UInt8 := unparseInt 2 val.toNat

def u32 (val : UInt32) : List UInt8 := unparseInt 4 val.toNat

/-- The loop writes the number in base 256. -/
theorem unparseInt_eq_encode (len val : ℕ) : unparseInt len val = Octets.encode len val := by
  induction len with
  | zero => rfl
  | succ len ih =>
      rw [unparseInt, List.range_succ_eq_map, List.map_cons, List.map_map, Octets.encode, ← ih]
      congr 1
      · have hmask := Nat.and_two_pow_sub_one_eq_mod (val / 256 ^ len) 8
        rw [show (len + 1 - 0 - 1) * 8 = 8 * len by omega, Nat.shiftRight_eq_div_pow, pow_mul]
        apply UInt8.toNat_inj.mp
        rw [UInt8.toNat_ofNat', UInt8.toNat_ofNat']
        exact (congrArg (· % 2 ^ 8) hmask).trans (Nat.mod_mod _ _)
      · refine List.map_congr_left fun i _ => ?_
        simp only [Function.comp_apply, Nat.succ_eq_add_one, Nat.add_sub_add_right]

/-- Any `len` bytes are those of a number. -/
theorem exists_unparseInt {b : List UInt8} {len : ℕ} (enough : len ≤ b.length) :
    ∃ val < 256 ^ len, ∃ rest, b = unparseInt len val ++ rest ∧ b.length = len + rest.length := by
  have size : (b.take len).length = len := by
    rw [List.length_take]
    omega
  refine ⟨Octets.decode (b.take len), ?_, b.drop len, ?_, ?_⟩
  · exact (Octets.decode_lt _).trans_eq (by rw [size])
  · rw [unparseInt_eq_encode, Octets.encode_decode size, List.take_append_drop]
  · rw [List.length_drop]
    omega

/-- Any byte is that of a number; the same for two and for four. -/
theorem exists_u8 {b : List UInt8} (enough : 1 ≤ b.length) :
    ∃ val rest, b = u8 val ++ rest ∧ b.length = 1 + rest.length := by
  obtain ⟨val, hval, rest, hb⟩ := exists_unparseInt enough
  refine ⟨UInt8.ofNat val, rest, ?_⟩
  rwa [u8, UInt8.toNat_ofNat', Nat.mod_eq_of_lt (show val < 2 ^ 8 from hval)]

theorem exists_u16 {b : List UInt8} (enough : 2 ≤ b.length) :
    ∃ val rest, b = u16 val ++ rest ∧ b.length = 2 + rest.length := by
  obtain ⟨val, hval, rest, hb⟩ := exists_unparseInt enough
  refine ⟨UInt16.ofNat val, rest, ?_⟩
  rwa [u16, UInt16.toNat_ofNat', Nat.mod_eq_of_lt (show val < 2 ^ 16 from hval)]

theorem exists_u32 {b : List UInt8} (enough : 4 ≤ b.length) :
    ∃ val rest, b = u32 val ++ rest ∧ b.length = 4 + rest.length := by
  obtain ⟨val, hval, rest, hb⟩ := exists_unparseInt enough
  refine ⟨UInt32.ofNat val, rest, ?_⟩
  rwa [u32, UInt32.toNat_ofNat', Nat.mod_eq_of_lt (show val < 2 ^ 32 from hval)]

theorem length_resize (s : List UInt8) (n : ℕ) : (resize s n).length = n := by
  rw [resize, List.length_append, List.length_take, List.length_replicate]
  omega

/-- A string that is short enough is filled up. -/
theorem resize_of_le {s : List UInt8} {n : ℕ} (h : s.length ≤ n) :
    resize s n = s ++ List.replicate (n - s.length) 0 := by
  rw [resize, List.take_of_length_le h]

@[simp] theorem length_u8 (val : UInt8) : (u8 val).length = 1 := by simp [u8, unparseInt]

@[simp] theorem length_u16 (val : UInt16) : (u16 val).length = 2 := by simp [u16, unparseInt]

@[simp] theorem length_u32 (val : UInt32) : (u32 val).length = 4 := by simp [u32, unparseInt]

end NetUnparser

namespace NetParser

/-- What was unparsed is what is read. -/
theorem parseInt_unparse (len val : ℕ) (rest : List UInt8) :
    parseInt ⟨NetUnparser.unparseInt len val ++ rest, .noError⟩ len
      = (val % 256 ^ len, ⟨rest, .noError⟩) := by
  rw [NetUnparser.unparseInt_eq_encode]
  have hlen := Octets.length_encode len val
  have whole := Consumed.start (Octets.encode len val ++ rest)
  have enough : 0 + len ≤ (Octets.encode len val ++ rest).length := by
    rw [List.length_append]
    omega
  refine Prod.ext ?_ ?_
  · rw [whole.parseInt_fst enough, fieldAt, List.drop_zero, List.take_left' hlen,
      Octets.decode_encode]
  · rw [(whole.parseInt len).eq_of_le enough, Nat.zero_add, List.drop_left' hlen]

@[simp] theorem u8_unparse (val : UInt8) (rest : List UInt8) :
    u8 ⟨NetUnparser.u8 val ++ rest, .noError⟩ = (val, ⟨rest, .noError⟩) := by
  simp [u8, NetUnparser.u8, parseInt_unparse]

@[simp] theorem u16_unparse (val : UInt16) (rest : List UInt8) :
    u16 ⟨NetUnparser.u16 val ++ rest, .noError⟩ = (val, ⟨rest, .noError⟩) := by
  simp [u16, NetUnparser.u16, parseInt_unparse]

@[simp] theorem u32_unparse (val : UInt32) (rest : List UInt8) :
    u32 ⟨NetUnparser.u32 val ++ rest, .noError⟩ = (val, ⟨rest, .noError⟩) := by
  simp [u32, NetUnparser.u32, parseInt_unparse]

end NetParser

namespace NetUnparser

/-- The bytes of a number say which one it is, whatever follows them. -/
theorem u8_append_inj {val val' : UInt8} {rest rest' : List UInt8} :
    u8 val ++ rest = u8 val' ++ rest' ↔ val = val' ∧ rest = rest' := by
  refine ⟨fun same => ?_, fun ⟨hval, hrest⟩ => by rw [hval, hrest]⟩
  have read := congrArg (fun bytes => NetParser.u8 ⟨bytes, .noError⟩) same
  simpa using read

theorem u16_append_inj {val val' : UInt16} {rest rest' : List UInt8} :
    u16 val ++ rest = u16 val' ++ rest' ↔ val = val' ∧ rest = rest' := by
  refine ⟨fun same => ?_, fun ⟨hval, hrest⟩ => by rw [hval, hrest]⟩
  have read := congrArg (fun bytes => NetParser.u16 ⟨bytes, .noError⟩) same
  simpa using read

end NetUnparser

end Sponge
