import Mathlib.Tactic.Ring
import Mathlib.Tactic.Linarith

/-!
# Numbers in network byte order

A number below `256 ^ len` and the `len` bytes that represent it, most significant
byte first.

* `encode`, `decode` — the two directions.
* `decode_encode` — encoding and decoding keeps the lowest `len` bytes of a number.
* `encode_decode` — decoding and encoding gives back the bytes.
* `decode_lt` — `len` bytes decode to a number below `256 ^ len`.

`decode_encode` has no premise: a number that does not fit is cut, as a field of a packet cuts it.
Leading zeros do not count, so a number determines its bytes only together with their number
(`decode_inj`).
-/

namespace Octets

/-- The last `len` bytes of `n`, most significant first. -/
def encode : ℕ → ℕ → List UInt8
  | 0, _ => []
  | len + 1, n => UInt8.ofNat (n / 256 ^ len) :: encode len n

/-- The number that a list of bytes represents. -/
def decode (bytes : List UInt8) : ℕ :=
  bytes.foldl (fun acc byte => acc * 256 + byte.toNat) 0

@[simp] theorem length_encode (len n : ℕ) : (encode len n).length = len := by
  induction len with
  | zero => rfl
  | succ len ih => rw [encode, List.length_cons, ih]

/-- Bytes read after `acc` stand to the right of it. -/
theorem foldl_decode (acc : ℕ) (bytes : List UInt8) :
    bytes.foldl (fun acc byte => acc * 256 + byte.toNat) acc
      = acc * 256 ^ bytes.length + decode bytes := by
  induction bytes generalizing acc with
  | nil => simp [decode]
  | cons byte bytes ih =>
      have hhead : decode (byte :: bytes) = (0 * 256 + byte.toNat) * 256 ^ bytes.length + decode bytes :=
        ih _
      rw [List.foldl_cons, ih, List.length_cons, hhead]
      ring

@[simp] theorem decode_nil : decode [] = 0 := rfl

theorem decode_cons (byte : UInt8) (bytes : List UInt8) :
    decode (byte :: bytes) = byte.toNat * 256 ^ bytes.length + decode bytes := by
  rw [decode, List.foldl_cons, foldl_decode, Nat.zero_mul, Nat.zero_add]

/-- A list of bytes represents a number that fits it. -/
theorem decode_lt (bytes : List UInt8) : decode bytes < 256 ^ bytes.length := by
  induction bytes with
  | nil => simp
  | cons byte bytes ih =>
      have hbyte := byte.toNat_lt
      rw [decode_cons, List.length_cons, pow_succ]
      nlinarith [Nat.zero_le (decode bytes)]

/-- **Decoding undoes encoding**, up to what fits `len` bytes. -/
theorem decode_encode (len n : ℕ) : decode (encode len n) = n % 256 ^ len := by
  induction len with
  | zero => simp [encode, Nat.mod_one]
  | succ len ih =>
      rw [encode, decode_cons, ih, length_encode, Nat.mod_pow_succ]
      simp only [UInt8.toNat_ofNat']
      ring

/-- Lists of one length that represent the same number are equal. -/
theorem decode_inj {xs ys : List UInt8} (size : xs.length = ys.length)
    (same : decode xs = decode ys) : xs = ys := by
  induction xs generalizing ys with
  | nil => exact (List.length_eq_zero_iff.mp size.symm).symm
  | cons x xs ih =>
      cases ys with
      | nil => cases size
      | cons y ys =>
          have size' : xs.length = ys.length := Nat.succ.inj size
          have hpos : 0 < 256 ^ ys.length := Nat.pow_pos (by decide)
          have hxs : decode xs < 256 ^ ys.length := size' ▸ decode_lt xs
          have hys := decode_lt ys
          rw [decode_cons, decode_cons, size', Nat.mul_comm x.toNat, Nat.mul_comm y.toNat] at same
          -- the first byte is the quotient, and the others are the remainder
          have hquot := congrArg (· / 256 ^ ys.length) same
          simp only [Nat.mul_add_div hpos, Nat.div_eq_of_lt hxs, Nat.div_eq_of_lt hys,
            Nat.add_zero] at hquot
          rw [hquot] at same
          rw [UInt8.toNat_inj.mp hquot, ih size' (Nat.add_left_cancel same)]

/-- **Encoding undoes decoding.** -/
theorem encode_decode {bytes : List UInt8} {len : ℕ} (size : bytes.length = len) :
    encode len (decode bytes) = bytes := by
  apply decode_inj
  · rw [length_encode, size]
  · rw [decode_encode]
    exact Nat.mod_eq_of_lt (size ▸ decode_lt bytes)

end Octets
