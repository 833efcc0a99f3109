import Mathlib.Algebra.Order.Group.Unbundled.Int
import Mathlib.Data.Nat.Bitwise
import Sponge.Word

/-!
# 32-bit wrapping sequence numbers

Embedding of `libsponge/wrapping_integers.{hh,cc}`.  A sequence number on the wire
is a 32-bit value relative to a random initial sequence number; inside a
connection it is an absolute 64-bit index.  `wrap` goes from the index to the wire
and `unwrap` goes back, choosing an index near a checkpoint.

All that `unwrap` reads of its two wire values is their distance `offset`, so its
behaviour is stated over natural numbers: `unwrap_eq` is the formula, and

* `unwrap_wrap` — an index within `2^31` of the checkpoint survives the round trip;
* `unwrap_mod` — the result always has the residue the wire value names;
* `unwrap_lt` — the result is never far above the checkpoint;
* `unwrap_nearest` — no index that wraps to the wire value is nearer to the checkpoint.

### The two branches of `unwrap`

The source tells apart whether the wire value lies below or above the initial sequence
number, as signed numbers, and computes the distance differently.  Both computations give
the same 32-bit number (`unwrap_off`); the branch is kept in the definition, where a reader
expects it, and is gone after one lemma.

### Where the nearest index is not near

Indices are 64-bit numbers, so close to the ends of the range the candidate on the other
side of the checkpoint does not exist.  `unwrap_range` says that the result is within half a
turn, with these two exceptions; that no candidate is nearer follows from it by arithmetic,
since two candidates are a whole number of turns apart.
-/

namespace Sponge

/-- `WrappingInt32`. -/
@[ext]
structure WrappingInt32 where
  rawValue : UInt32
  deriving Repr, DecidableEq

namespace WrappingInt32

/-- `operator-(WrappingInt32, WrappingInt32)`: the difference as an `int32_t`. -/
instance : HSub WrappingInt32 WrappingInt32 Int32 :=
  ⟨fun a b => (a.rawValue - b.rawValue).toInt32⟩

/-- `operator+(WrappingInt32, uint32_t)`. -/
instance : HAdd WrappingInt32 UInt32 WrappingInt32 := ⟨fun a b => ⟨a.rawValue + b⟩⟩

/-- `operator-(WrappingInt32, uint32_t)`. -/
instance : HSub WrappingInt32 UInt32 WrappingInt32 := ⟨fun a b => a + -b⟩

/-- The distance from the initial sequence number up to `n`, around the circle. -/
def offset (n isn : WrappingInt32) : ℕ := (n.rawValue - isn.rawValue).toNat

/-- A distance is less than a turn. -/
theorem offset_lt (n isn : WrappingInt32) : n.offset isn < 2 ^ 32 := UInt32.toNat_lt _

/-- Only the initial sequence number is at distance zero. -/
theorem offset_eq_zero_iff {n isn : WrappingInt32} : n.offset isn = 0 ↔ n = isn := by
  have := n.rawValue.toNat_lt
  have := isn.rawValue.toNat_lt
  rw [WrappingInt32.ext_iff, ← UInt32.toNat_inj, offset, UInt32.toNat_sub]
  omega

/-- Two wire values at the same distance are the same. -/
theorem offset_inj {n m isn : WrappingInt32} : n.offset isn = m.offset isn ↔ n = m := by
  have := n.rawValue.toNat_lt
  have := m.rawValue.toNat_lt
  have := isn.rawValue.toNat_lt
  rw [WrappingInt32.ext_iff, ← UInt32.toNat_inj, offset, offset, UInt32.toNat_sub, UInt32.toNat_sub]
  omega

/-- One step around the circle. -/
theorem offset_add_one (n isn : WrappingInt32) :
    (n + (1 : UInt32)).offset isn = (n.offset isn + 1) % 2 ^ 32 := by
  have := isn.rawValue.toNat_lt
  show (n.rawValue + 1 - isn.rawValue).toNat = ((n.rawValue - isn.rawValue).toNat + 1) % _
  rw [UInt32.toNat_sub, UInt32.toNat_add, UInt32.toNat_sub, UInt32.toNat_one]
  omega

end WrappingInt32

open WrappingInt32

/-- The low half of a 64-bit word. -/
def mask32 : ℕ := 0xFFFFFFFF

/-- `wrap`: the lower half of the index, added to the initial sequence number. -/
def wrap (n : ℕ) (isn : WrappingInt32) : WrappingInt32 :=
  let n := n &&& mask32
  let n := n + isn.rawValue.toNat
  let n := n &&& mask32
  ⟨UInt32.ofNat n⟩

/-- `unwrap`: of the indices that wrap to `n`, one near the checkpoint. -/
def unwrap (n isn : WrappingInt32) (checkpoint : ℕ) : ℕ :=
  let off : UInt32 :=
    if n - isn < (0 : Int32) then 0xFFFFFFFF - (isn.rawValue - n.rawValue - 1)
    else n.rawValue - isn.rawValue
  -- `~mask`, as a 64-bit word
  let res := add64 (checkpoint &&& 0xFFFFFFFF00000000) off.toNat
  if res ≤ checkpoint then
    if checkpoint - res ≤ (mask32 + 1) >>> 1 then res
    else max res (add64 res (mask32 + 1))
  else
    if res - checkpoint ≤ (mask32 + 1) >>> 1 ∨ res < mask32 + 1 then res
    else res - (mask32 + 1)

/-! ## Wrapping -/

theorem and_mask32 (n : ℕ) : n &&& mask32 = n % 2 ^ 32 :=
  Nat.and_two_pow_sub_one_eq_mod n 32

/-- The distance of a wrapped index from the initial sequence number is the index
modulo `2^32`. -/
@[simp] theorem offset_wrap (n : ℕ) (isn : WrappingInt32) :
    (wrap n isn).offset isn = n % 2 ^ 32 := by
  have := isn.rawValue.toNat_lt
  simp only [wrap, offset, and_mask32, UInt32.toNat_sub, UInt32.toNat_ofNat']
  omega

/-- A wire value is determined by its distance from the initial sequence number. -/
theorem eq_wrap_iff {n isn : WrappingInt32} {a : ℕ} :
    n = wrap a isn ↔ n.offset isn = a % 2 ^ 32 := by
  rw [← offset_wrap a isn, offset_inj]

/-- An index wraps to the initial sequence number once every turn. -/
theorem wrap_eq_isn_iff {a : ℕ} {isn : WrappingInt32} :
    wrap a isn = isn ↔ a % 2 ^ 32 = 0 := by
  rw [← offset_eq_zero_iff, offset_wrap]

theorem wrap_zero (isn : WrappingInt32) : wrap 0 isn = isn :=
  wrap_eq_isn_iff.mpr (Nat.zero_mod _)

/-- The next index wraps to the next wire value. -/
theorem wrap_add_one (a : ℕ) (isn : WrappingInt32) :
    wrap a isn + (1 : UInt32) = wrap (a + 1) isn := by
  rw [eq_wrap_iff, offset_add_one, offset_wrap, Nat.mod_add_mod]

/-! ## Unwrapping -/

/-- Both branches compute the same 32-bit difference. -/
theorem unwrap_off (n isn : WrappingInt32) :
    (if n - isn < (0 : Int32) then 0xFFFFFFFF - (isn.rawValue - n.rawValue - 1)
      else n.rawValue - isn.rawValue) = n.rawValue - isn.rawValue := by
  split
  · have := n.rawValue.toNat_lt
    have := isn.rawValue.toNat_lt
    have htop : (0xFFFFFFFF : UInt32).toNat = 2 ^ 32 - 1 := by decide
    simp only [← UInt32.toNat_inj, UInt32.toNat_sub, UInt32.toNat_one, htop]
    omega
  · rfl

/-- Clearing the low half keeps the multiple of `2^32` below. -/
theorem and_not_mask32 {n : ℕ} (h : n < 2 ^ 64) :
    n &&& 0xFFFFFFFF00000000 = n / 2 ^ 32 * 2 ^ 32 := by
  have hsplit : (0xFFFFFFFF00000000 : ℕ) = (2 ^ 32 - 1) <<< 32 := by decide
  have hshift : n / 2 ^ 32 * 2 ^ 32 = (n >>> 32) <<< 32 := by
    rw [Nat.shiftLeft_eq, Nat.shiftRight_eq_div_pow]
  rw [hsplit, hshift]
  refine Nat.eq_of_testBit_eq fun i => ?_
  simp only [Nat.testBit_and, Nat.testBit_shiftLeft, Nat.testBit_two_pow_sub_one,
    Nat.testBit_shiftRight]
  by_cases high : 32 ≤ i
  · by_cases top : i < 64
    · have hlow : i - 32 < 32 := by omega
      simp [high, hlow, Nat.add_sub_cancel' high]
    · have : n.testBit i = false :=
        Nat.testBit_lt_two_pow (h.trans_le (Nat.pow_le_pow_right (by decide) (by omega)))
      simp [high, Nat.add_sub_cancel' high, this]
  · simp [high]

/-- **The formula of `unwrap`.**  The candidate in the period of the checkpoint is moved by one
period, up or down, if that brings it closer; the `max` is the source's guard against moving past
the last number. -/
theorem unwrap_eq (n isn : WrappingInt32) {checkpoint : ℕ} (h : checkpoint < 2 ^ 64) :
    unwrap n isn checkpoint =
      (let res := checkpoint / 2 ^ 32 * 2 ^ 32 + n.offset isn
       if res ≤ checkpoint then
         if checkpoint - res ≤ 2 ^ 31 then res else max res (add64 res (2 ^ 32))
       else
         if res - checkpoint ≤ 2 ^ 31 ∨ res < 2 ^ 32 then res else res - 2 ^ 32) := by
  have hoff := n.offset_lt isn
  have hres : add64 (checkpoint / 2 ^ 32 * 2 ^ 32) (n.offset isn)
      = checkpoint / 2 ^ 32 * 2 ^ 32 + n.offset isn := add64_of_lt (by omega)
  have hmask : mask32 + 1 = 2 ^ 32 := by decide
  have hhalf : (2 ^ 32) >>> 1 = 2 ^ 31 := by decide
  simp only [unwrap, unwrap_off, and_not_mask32 h, hmask, hhalf]
  rw [← offset, hres]

/-- **Round trip near the checkpoint.**  Half a period to either side is as far as it goes, since
another number with the same wire value is then at least as close. -/
theorem unwrap_wrap {a checkpoint : ℕ} (isn : WrappingInt32) (ha : a < 2 ^ 64)
    (hc : checkpoint < 2 ^ 64) (below : checkpoint < a + 2 ^ 31)
    (above : a < checkpoint + 2 ^ 31) :
    unwrap (wrap a isn) isn checkpoint = a := by
  rw [unwrap_eq _ _ hc, offset_wrap]
  simp only [add64]
  split <;> split <;> omega

/-- **The result names the wire value again**, whatever the checkpoint. -/
theorem unwrap_mod (n isn : WrappingInt32) {checkpoint : ℕ} (h : checkpoint < 2 ^ 64) :
    unwrap n isn checkpoint % 2 ^ 32 = n.offset isn := by
  have hoff := n.offset_lt isn
  rw [unwrap_eq _ _ h]
  simp only [add64]
  split <;> split <;> omega

/-- **The result is never far above the checkpoint.**  Near zero it can be more than half a turn
above, since there is no earlier candidate. -/
theorem unwrap_lt (n isn : WrappingInt32) {checkpoint : ℕ} (h : checkpoint < 2 ^ 64) :
    unwrap n isn checkpoint < checkpoint + 2 ^ 32 := by
  have hoff := n.offset_lt isn
  rw [unwrap_eq _ _ h]
  simp only [add64]
  split <;> split <;> omega

/-- Only the initial sequence number itself can unwrap to zero. -/
theorem unwrap_pos {n isn : WrappingInt32} {checkpoint : ℕ} (h : checkpoint < 2 ^ 64)
    (hne : n ≠ isn) : 0 < unwrap n isn checkpoint := by
  have hmod := unwrap_mod n isn h
  have := mt offset_eq_zero_iff.mp hne
  omega

/-! ## The nearest index -/

/-- The result is a 64-bit number. -/
theorem unwrap_lt_two_pow (n isn : WrappingInt32) {checkpoint : ℕ} (h : checkpoint < 2 ^ 64) :
    unwrap n isn checkpoint < 2 ^ 64 := by
  have hoff := n.offset_lt isn
  rw [unwrap_eq _ _ h]
  simp only [add64]
  split <;> split <;> omega

/-- Unwrapping and wrapping gives the wire value back. -/
theorem wrap_unwrap_eq (n isn : WrappingInt32) {checkpoint : ℕ} (h : checkpoint < 2 ^ 64) :
    wrap (unwrap n isn checkpoint) isn = n :=
  (eq_wrap_iff.mpr (unwrap_mod n isn h).symm).symm

/-- The result is within half a turn of the checkpoint, or in the first half turn above it
with no index below, or in the last half turn below it with no 64-bit index above. -/
theorem unwrap_range (n isn : WrappingInt32) {checkpoint : ℕ} (h : checkpoint < 2 ^ 64) :
    (unwrap n isn checkpoint ≤ checkpoint + 2 ^ 31 ∨ unwrap n isn checkpoint < 2 ^ 32) ∧
      (checkpoint ≤ unwrap n isn checkpoint + 2 ^ 31 ∨
        2 ^ 64 ≤ unwrap n isn checkpoint + 2 ^ 32) := by
  have hoff := n.offset_lt isn
  rw [unwrap_eq _ _ h]
  simp only [add64]
  split <;> split <;> omega

/-- **`unwrap` gives the nearest index.**  The result wraps to the wire value it came from;
no 64-bit index that wraps to that value is nearer to the checkpoint; and so an index less
than half a turn from the checkpoint survives the round trip. -/
theorem unwrap_nearest (n isn : WrappingInt32) {checkpoint : ℕ} (h : checkpoint < 2 ^ 64) :
    (unwrap n isn checkpoint < 2 ^ 64 ∧ wrap (unwrap n isn checkpoint) isn = n) ∧
      (∀ m : ℕ, m < 2 ^ 64 → wrap m isn = n →
        |(unwrap n isn checkpoint : ℤ) - checkpoint| ≤ |(m : ℤ) - checkpoint|) ∧
      ∀ m : ℕ, m < 2 ^ 64 → |(m : ℤ) - checkpoint| < 2 ^ 31 →
        unwrap (wrap m isn) isn checkpoint = m := by
  refine ⟨⟨unwrap_lt_two_pow n isn h, wrap_unwrap_eq n isn h⟩, fun m hm hwrap => ?_,
    fun m hm near => ?_⟩
  · -- two indices of one wire value are a whole number of turns apart
    have residue : m % 2 ^ 32 = unwrap n isn checkpoint % 2 ^ 32 := by
      rw [unwrap_mod n isn h, ← hwrap, offset_wrap]
    obtain ⟨above, below⟩ := unwrap_range n isn h
    have hlt := unwrap_lt_two_pow n isn h
    rw [Int.abs_eq_natAbs, Int.abs_eq_natAbs]
    omega
  · rw [abs_lt] at near
    exact unwrap_wrap isn hm h (by omega) (by omega)

/-- At the end of the range the nearest index lies nearly a turn below the checkpoint: the
next one would be past `2^64`. -/
theorem unwrap_nearest_lastTurn :
    unwrap ⟨5⟩ ⟨0⟩ (2 ^ 64 - 1) = 2 ^ 64 - 2 ^ 32 + 5 ∧
      ∀ m : ℕ, m < 2 ^ 64 → wrap m ⟨0⟩ = ⟨5⟩ →
        |(unwrap ⟨5⟩ ⟨0⟩ (2 ^ 64 - 1) : ℤ) - (2 ^ 64 - 1 : ℕ)| ≤ |(m : ℤ) - (2 ^ 64 - 1 : ℕ)| :=
  ⟨by decide, (unwrap_nearest ⟨5⟩ ⟨0⟩ (by decide)).2.1⟩

end Sponge
