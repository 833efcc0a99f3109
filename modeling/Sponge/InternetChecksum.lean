import Sponge.Library.OnesComplement
import Sponge.Parser

/-!
# The Internet checksum

Embedding of `InternetChecksum` of `libsponge/util/util.{hh,cc}`.  The sum is a
`uint32_t`; the parity says whether the next byte is the lower one of its 16-bit word,
and it is kept from one call of `add` to the next.

Main results:

* `value_chunks` — however the bytes are cut up, the checksum is the complement of the sum of
  their words, folded to 16 bits.
* `value_eq_zero_iff` — the checksum is zero exactly if the sum is a positive multiple of
  `0xffff`.
* `value_eq_zero_iff_sound` — for packets that fit a datagram this is the checksum's
  definition, `Sound`.
* `Sound.not_set` — no change of one byte keeps a packet's checksum right.
* `value_filled` — a packet that was given the checksum of itself with a zero in the
  checksum field has checksum zero, wherever the field stands as long as it is a word of
  the packet.

### Two zeros

In one's complement both 0 and `0xffff` are zero.  Folding never turns a positive sum into
0, so the checksum is `0xffff` if the seed and all the bytes are zero and at no other time,
and it is 0 whenever the sum is a positive multiple of `0xffff`.  That is why `Sound` asks
for a positive sum.

### The width of the sum

Carries are added in at the end only, so until then the sum must not overflow 32 bits.  The
conditions on the seed and on the size say so.  They hold of the packets of this stack: the
seed is zero or the sum of a pseudo-header, and the length of a datagram has 16 bits.
-/

namespace Sponge

open OnesComplement

/-- `InternetChecksum`. -/
structure InternetChecksum where
  sum : ℕ := 0
  parity : Bool := false
  deriving Repr, DecidableEq

namespace InternetChecksum

/-- One round of the loop of `add`. -/
def addByte (c : InternetChecksum) (byte : UInt8) : InternetChecksum :=
  let val := if c.parity then byte.toNat else byte.toNat <<< 8
  { sum := (c.sum + val) % 2 ^ 32, parity := !c.parity }

/-- `add`, byte by byte. -/
def add (c : InternetChecksum) (data : List UInt8) : InternetChecksum := data.foldl addByte c

/-- One round of the loop of `value` is an end-around carry. -/
theorem carry_eq (ret : ℕ) : (ret >>> 16) + (ret &&& 0xffff) = endAround 65536 ret := by
  rw [endAround, Nat.shiftRight_eq_div_pow]
  exact congrArg (ret / 2 ^ 16 + ·) (Nat.and_two_pow_sub_one_eq_mod ret 16)

/-- The loop of `value`. -/
def fold (ret : ℕ) : ℕ :=
  if 0xffff < ret then fold ((ret >>> 16) + (ret &&& 0xffff)) else ret
termination_by ret
decreasing_by
  rw [carry_eq]
  exact endAround_lt (by decide) (by omega)

/-- `value`. -/
def value (c : InternetChecksum) : UInt16 := ~~~UInt16.ofNat (fold c.sum)

/-! ## The loop of `value` -/

/-- The loop ends with 16 bits, -/
theorem fold_lt (ret : ℕ) : fold ret < 65536 := by
  induction ret using fold.induct with
  | case1 ret large ih =>
      rw [fold, if_pos large]
      exact ih
  | case2 ret small =>
      rw [fold, if_neg small]
      omega

/-- keeps the sum modulo `0xffff`, -/
theorem fold_modEq (ret : ℕ) : fold ret ≡ ret [MOD 65536 - 1] := by
  induction ret using fold.induct with
  | case1 ret large ih =>
      rw [fold, if_pos large]
      refine ih.trans ?_
      rw [carry_eq]
      exact endAround_modEq (by decide)
  | case2 ret small => rw [fold, if_neg small]

/-- and keeps the two zeros apart. -/
theorem fold_eq_zero (ret : ℕ) : fold ret = 0 ↔ ret = 0 := by
  induction ret using fold.induct with
  | case1 ret large ih =>
      rw [fold, if_pos large, ih, carry_eq]
      exact endAround_eq_zero
  | case2 ret small => rw [fold, if_neg small]

/-- The loop folds, and each of its rounds is a carry. -/
theorem foldsTo_fold (ret : ℕ) : FoldsTo 65536 ret (fold ret) := by
  induction ret using fold.induct with
  | case1 ret large ih =>
      rw [fold, if_pos large]
      apply FoldsTo.carry
      rwa [carry_eq] at ih ⊢
  | case2 ret small =>
      rw [fold, if_neg small]
      exact foldsTo_self (by omega)

/-- The complement is a difference. -/
theorem toNat_value (c : InternetChecksum) : c.value.toNat = 65535 - fold c.sum := by
  rw [value, UInt16.toNat_not, UInt16.toNat_ofNat', Nat.mod_eq_of_lt (fold_lt c.sum)]
  rfl

/-- **A checksum is zero** exactly if the sum is the upper zero of one's complement.  A sum of
nothing is the lower zero, and its checksum is `0xffff`. -/
theorem value_eq_zero_iff (c : InternetChecksum) :
    c.value = 0 ↔ 0 < c.sum ∧ c.sum % 65535 = 0 := by
  rw [← eq_top_iff (by decide) (fold_lt c.sum) (fold_modEq c.sum) (fold_eq_zero c.sum),
    ← UInt16.toNat_inj, toNat_value]
  have := fold_lt c.sum
  change 65535 - fold c.sum = 0 ↔ fold c.sum = 65535
  omega

/-- A sum and its checksum add up to the upper zero. -/
theorem value_complement (c : InternetChecksum) (parity : Bool) :
    value ⟨c.sum + c.value.toNat, parity⟩ = 0 := by
  have hlt := fold_lt c.sum
  have hmod : c.sum % 65535 = fold c.sum % 65535 := (fold_modEq c.sum).symm
  have hzero := fold_eq_zero c.sum
  rw [value_eq_zero_iff, toNat_value]
  constructor
  · show 0 < c.sum + (65535 - fold c.sum)
    omega
  · show (c.sum + (65535 - fold c.sum)) % 65535 = 0
    omega

/-! ## The sum -/

/-- Bytes may be added one after the other. -/
theorem add_append (c : InternetChecksum) (xs ys : List UInt8) :
    c.add (xs ++ ys) = (c.add xs).add ys := List.foldl_append

/-- As long as it fits, the sum is the sum of the words. -/
theorem add_eq {c : InternetChecksum} {data : List UInt8}
    (fits : c.sum + wordSum c.parity data < 2 ^ 32) :
    c.add data = ⟨c.sum + wordSum c.parity data, parityAfter c.parity data⟩ := by
  induction data generalizing c with
  | nil => simp [add, wordSum, parityAfter]
  | cons byte data ih =>
      have hbyte : (c.addByte byte)
          = ⟨c.sum + (if c.parity then byte.toNat else byte.toNat * 256), !c.parity⟩ := by
        rw [wordSum] at fits
        rw [addByte, show byte.toNat <<< 8 = byte.toNat * 256 from Nat.shiftLeft_eq _ _]
        exact congrArg (InternetChecksum.mk · _) (Nat.mod_eq_of_lt (by omega))
      have step : c.add (byte :: data) = (c.addByte byte).add data := rfl
      rw [wordSum, ← Nat.add_assoc] at fits ⊢
      rw [step, hbyte, ih fits, parityAfter_cons]

/-- The bytes of a datagram fit the sum. -/
theorem sum_fits {seed : ℕ} {data : List UInt8} (hseed : seed < 2 ^ 20)
    (size : data.length ≤ 65535) : seed + wordSum false data < 2 ^ 32 := by
  have hdata := wordSum_le false data
  simp only [Bool.false_eq_true, if_false] at hdata
  omega

/-- It does not matter how the bytes are cut up. -/
theorem foldl_add (c : InternetChecksum) (chunks : List (List UInt8)) :
    chunks.foldl add c = c.add chunks.flatten := List.foldl_flatten.symm

/-- **The checksum of bytes in chunks.**  Whatever the chunks, the checksum is the complement
of the digit to which the seed and the words of the bytes fold, and the sum is exact after
every byte on the way. -/
theorem value_chunks {seed : ℕ} (hseed : seed < 2 ^ 20) {chunks : List (List UInt8)}
    (size : chunks.flatten.length ≤ 65535) :
    (∃ r, FoldsTo 65536 (seed + (words chunks.flatten).sum) r) ∧
    (∀ r, FoldsTo 65536 (seed + (words chunks.flatten).sum) r →
      (chunks.foldl add ⟨seed, false⟩).value = ~~~UInt16.ofNat r) ∧
    ∀ front, front <+: chunks.flatten →
      (add ⟨seed, false⟩ front).sum = seed + (words front).sum ∧
        seed + (words front).sum < 2 ^ 32 := by
  have exact_sum {front : List UInt8} (short : front.length ≤ 65535) :
      (add ⟨seed, false⟩ front).sum = seed + (words front).sum := by
    rw [sum_words, add_eq (sum_fits hseed short)]
  refine ⟨⟨_, foldsTo_fold _⟩, fun r folds => ?_, fun front hfront => ?_⟩
  · rw [foldl_add, value, exact_sum size, (foldsTo_fold _).unique folds]
  · have short : front.length ≤ 65535 := hfront.length_le.trans size
    refine ⟨exact_sum short, ?_⟩
    rw [sum_words]
    exact sum_fits hseed short

/-- Three bytes in chunks of one, none and two. -/
theorem value_chunks_odd :
    ([[0xff], [], [0xff, 0x12]].foldl add ⟨1, false⟩).value = 0xedfe := by
  have folds : FoldsTo 65536 (1 + (words [[0xff], [], [0xff, 0x12]].flatten).sum) 0x1201 :=
    ⟨by decide, 1, by decide⟩
  exact (value_chunks (by decide) (by decide)).2.1 _ folds

/-- **The Internet checksum of a packet is zero**, in the terms of one's complement: the
words of the packet and the seed add up to the upper zero. -/
def Sound (seed : ℕ) (data : List UInt8) : Prop :=
  0 < seed + wordSum false data ∧ (seed + wordSum false data) % 65535 = 0

instance (seed : ℕ) (data : List UInt8) : Decidable (Sound seed data) :=
  inferInstanceAs (Decidable (_ ∧ _))

/-- The code computes it, for a packet that fits a datagram. -/
theorem value_eq_zero_iff_sound {seed : ℕ} {data : List UInt8} (hseed : seed < 2 ^ 20)
    (size : data.length ≤ 65535) : value (add ⟨seed, false⟩ data) = 0 ↔ Sound seed data := by
  rw [value_eq_zero_iff, add_eq (sum_fits hseed size), Sound]

/-- **A change of one byte is seen.**  It changes the sum by at most 255 times 256, and so not
by a multiple of `0xffff`. -/
theorem Sound.not_set {seed : ℕ} {data : List UInt8} (sound : Sound seed data) {i : ℕ}
    (hi : i < data.length) {byte : UInt8} (changed : byte ≠ data[i]) :
    ¬Sound seed (data.set i byte) := by
  obtain ⟨weight, hweight, hsum⟩ := wordSum_set false hi byte
  have hold : data[i].toNat < 256 := data[i].toNat_lt
  have hnew : byte.toNat < 256 := byte.toNat_lt
  have hne : byte.toNat ≠ data[i].toNat := fun h => changed (UInt8.toNat_inj.mp h)
  intro sound'
  rcases Nat.lt_or_gt_of_ne hne with less | more
  · refine not_both_multiples (b := 65536) (d := weight * (data[i].toNat - byte.toNat)) ?_ ?_
      (Or.inr ?_) sound.2 sound'.2
    · rcases hweight with rfl | rfl <;> omega
    · rcases hweight with rfl | rfl <;> omega
    · rcases hweight with rfl | rfl <;> omega
  · refine not_both_multiples (b := 65536) (d := weight * (byte.toNat - data[i].toNat)) ?_ ?_
      (Or.inl ?_) sound.2 sound'.2
    · rcases hweight with rfl | rfl <;> omega
    · rcases hweight with rfl | rfl <;> omega
    · rcases hweight with rfl | rfl <;> omega

/-- The two bytes of a word add up to the word. -/
theorem wordSum_u16 (val : UInt16) : wordSum false (NetUnparser.u16 val) = val.toNat := by
  have hval : val.toNat < 65536 := val.toNat_lt
  rw [NetUnparser.u16, NetUnparser.unparseInt_eq_encode]
  simp only [Octets.encode, wordSum, UInt8.toNat_ofNat', Bool.not_false, if_true,
    Bool.false_eq_true, if_false]
  omega

/-- The checksum field counts as a word of its own. -/
theorem wordSum_field {front : List UInt8} (even : front.length % 2 = 0) (val : UInt16)
    (back : List UInt8) :
    wordSum false (front ++ NetUnparser.u16 val ++ back)
      = wordSum false front + val.toNat + wordSum false back := by
  have hfield : (front ++ NetUnparser.u16 val).length % 2 = 0 := by
    rw [List.length_append, NetUnparser.length_u16]
    omega
  rw [wordSum_append, parityAfter_even hfield, wordSum_append, parityAfter_even even, wordSum_u16]

/-- **Filling in the checksum.**  Checked with the field filled in, a packet has checksum
zero. -/
theorem value_filled {seed : ℕ} {front back : List UInt8} (hseed : seed < 2 ^ 20)
    (even : front.length % 2 = 0) (size : front.length + 2 + back.length ≤ 65535) :
    value (add ⟨seed, false⟩
      (front ++ NetUnparser.u16 (value (add ⟨seed, false⟩ (front ++ NetUnparser.u16 0 ++ back)))
        ++ back)) = 0 := by
  have hfront := wordSum_le false front
  have hback := wordSum_le false back
  simp only [Bool.false_eq_true, if_false] at hfront hback
  -- the sum of at most 65535 bytes stays far below 2 ^ 32
  have hempty : add ⟨seed, false⟩ (front ++ NetUnparser.u16 0 ++ back)
      = ⟨seed + (wordSum false front + wordSum false back),
          parityAfter false (front ++ NetUnparser.u16 0 ++ back)⟩ := by
    have hsum := wordSum_field even 0 back
    rw [show (0 : UInt16).toNat = 0 from rfl, Nat.add_zero] at hsum
    rw [← hsum]
    exact add_eq (by rw [hsum]; show seed + _ < _; omega)
  rw [hempty]
  set c : InternetChecksum := ⟨seed + (wordSum false front + wordSum false back),
    parityAfter false (front ++ NetUnparser.u16 0 ++ back)⟩ with hc
  have hvalue : c.value.toNat < 65536 := c.value.toNat_lt
  have hsum := wordSum_field even c.value back
  rw [add_eq (by rw [hsum]; show seed + _ < _; omega)]
  have hshape : seed + wordSum false (front ++ NetUnparser.u16 c.value ++ back)
      = c.sum + c.value.toNat := by
    rw [hsum]
    show _ = seed + (wordSum false front + wordSum false back) + c.value.toNat
    omega
  show value ⟨seed + wordSum false (front ++ NetUnparser.u16 c.value ++ back), _⟩ = 0
  rw [hshape]
  exact value_complement c _

end InternetChecksum

end Sponge
