import Mathlib.Data.Nat.ModEq
import Mathlib.Logic.Function.Iterate
import Mathlib.Tactic.Linarith

/-!
# One's complement sums

Sums of words in which a carry out of the top is added back at the bottom.  In base `b`
this is arithmetic modulo `b - 1`, with two representations of zero: `0` itself, and
`b - 1`, which is what every sum comes to that is a multiple of `b - 1` but not `0`.

* `endAround b n` — one end-around carry; it makes a number of two digits smaller
  (`endAround_lt`), keeps it modulo `b - 1` (`endAround_modEq`), and keeps it from
  becoming zero (`endAround_eq_zero`).
* `eq_top_iff` — the digit left over at the end is `b - 1` exactly for the positive
  multiples of `b - 1`.
* `FoldsTo` — carries are added back until one digit is left, which happens in one way only
  (`FoldsTo.unique`).
* `words` — a list of bytes, taken two at a time; `wordSum` is their sum, as it is computed
  byte by byte, and `wordSum_set` says what a change of one byte does to it.

### The two zeros

A sum is checked by comparing the digit left over with the upper zero.  That is a test for
"a positive multiple of `b - 1`", and the two halves of it come from different facts:
folding keeps a number modulo `b - 1`, and folding never turns a positive number into `0`.
`eq_top_iff` puts them together and tells the two representations apart.

### Byte by byte

A program sums bytes, not words, and keeps one bit of where it is.  `wordSum` is that
computation; `sum_words` relates it to the words.  The flag is an argument and not a
property of the list, so that a sum over a header and a payload can be taken in two parts
(`wordSum_append`).
-/

namespace OnesComplement

/-- Add the carry to the digit it comes from. -/
def endAround (b n : ℕ) : ℕ := n / b + n % b

section

variable {b n : ℕ}

/-- A carry makes a number of more than one digit smaller, so folding ends. -/
theorem endAround_lt (hb : 2 ≤ b) (hn : b ≤ n) : endAround b n < n := by
  have hdiv : 0 < n / b := Nat.div_pos hn (by omega)
  have hsplit := Nat.div_add_mod n b
  have : n / b < b * (n / b) := by nlinarith
  unfold endAround
  omega

/-- A carry is worth `b`, which is one modulo `b - 1`. -/
theorem endAround_modEq (hb : 1 ≤ b) : endAround b n ≡ n [MOD b - 1] := by
  obtain ⟨m, rfl⟩ : ∃ m, b = m + 1 := ⟨b - 1, by omega⟩
  have hsplit := Nat.div_add_mod n (m + 1)
  rw [Nat.add_sub_cancel]
  calc endAround (m + 1) n
      ≡ m * (n / (m + 1)) + endAround (m + 1) n [MOD m] := by
        rw [Nat.ModEq, Nat.mul_add_mod]
    _ = n := by
        rw [endAround, ← Nat.add_assoc, ← Nat.succ_mul]
        exact hsplit

/-- Only zero is carried to zero. -/
theorem endAround_eq_zero : endAround b n = 0 ↔ n = 0 := by
  constructor
  · intro h
    have hsplit := Nat.div_add_mod n b
    have hdiv : n / b = 0 := Nat.eq_zero_of_add_eq_zero_right h
    have hmod : n % b = 0 := Nat.eq_zero_of_add_eq_zero_left h
    rw [hdiv, hmod, Nat.mul_zero] at hsplit
    exact hsplit.symm
  · rintro rfl
    simp [endAround]

/-- **The two zeros.**  A digit that stands for `n` is the upper zero exactly if `n` is a
positive multiple of `b - 1`. -/
theorem eq_top_iff {r : ℕ} (hb : 2 ≤ b) (hr : r < b) (hmod : r ≡ n [MOD b - 1])
    (hzero : r = 0 ↔ n = 0) : r = b - 1 ↔ 0 < n ∧ n % (b - 1) = 0 := by
  constructor
  · rintro rfl
    refine ⟨Nat.pos_of_ne_zero fun hn => ?_, ?_⟩
    · have := hzero.mpr hn
      omega
    · rw [← hmod, Nat.mod_self]
  · rintro ⟨hn, hmultiple⟩
    have hr0 : r % (b - 1) = 0 := Eq.trans hmod hmultiple
    have hpos : r ≠ 0 := fun h => hn.ne' (hzero.mp h)
    obtain ⟨k, hk⟩ := Nat.dvd_of_mod_eq_zero hr0
    rcases k with _ | _ | k
    · omega
    · omega
    · have : (b - 1) * 2 ≤ (b - 1) * (k + 1 + 1) := Nat.mul_le_mul_left _ (by omega)
      omega

/-- **Folding**: after some number of end-around carries, the digit `r` is left. -/
structure FoldsTo (b n r : ℕ) : Prop where
  digit : r < b
  carries : ∃ k, (endAround b)^[k] n = r

theorem foldsTo_self {r : ℕ} (digit : r < b) : FoldsTo b r r := ⟨digit, 0, rfl⟩

theorem FoldsTo.carry {r : ℕ} (h : FoldsTo b (endAround b n) r) : FoldsTo b n r := by
  obtain ⟨digit, k, hk⟩ := h
  exact ⟨digit, k + 1, hk⟩

/-- A digit has nothing to carry. -/
theorem endAround_of_lt (h : n < b) : endAround b n = n := by
  rw [endAround, Nat.div_eq_of_lt h, Nat.mod_eq_of_lt h, Nat.zero_add]

/-- More carries change nothing, so there is one digit at the end. -/
theorem FoldsTo.unique {r r' : ℕ} (h : FoldsTo b n r) (h' : FoldsTo b n r') : r = r' := by
  have stays {k k' s s' : ℕ} (hle : k ≤ k') (hs : s < b) (hk : (endAround b)^[k] n = s)
      (hk' : (endAround b)^[k'] n = s') : s = s' := by
    obtain ⟨extra, rfl⟩ := Nat.exists_eq_add_of_le' hle
    rw [Function.iterate_add_apply, hk, Function.iterate_fixed (endAround_of_lt hs)] at hk'
    exact hk'
  obtain ⟨digit, k, hk⟩ := h
  obtain ⟨digit', k', hk'⟩ := h'
  rcases Nat.le_total k k' with hle | hle
  · exact stays hle digit hk hk'
  · exact (stays hle digit' hk' hk).symm

end

/-! ## Sums of bytes -/

/-- The 16-bit words of a list of bytes, high byte first; an odd byte at the end is followed
by zero. -/
def words : List UInt8 → List ℕ
  | [] => []
  | [high] => [high.toNat * 256]
  | high :: low :: bytes => (high.toNat * 256 + low.toNat) :: words bytes

/-- The sum of the 16-bit words of a list of bytes.  The flag says that the next byte is
the lower one of its word. -/
def wordSum : Bool → List UInt8 → ℕ
  | _, [] => 0
  | low, byte :: bytes => (if low then byte.toNat else byte.toNat * 256) + wordSum (!low) bytes

/-- Summing byte by byte is summing the words. -/
theorem sum_words (bytes : List UInt8) : (words bytes).sum = wordSum false bytes := by
  induction bytes using words.induct with
  | case1 => rfl
  | case2 high => rfl
  | case3 high low bytes ih =>
      rw [words, List.sum_cons, ih, Nat.add_assoc]
      rfl

/-- The position of the byte that follows a list. -/
def parityAfter (low : Bool) (bytes : List UInt8) : Bool := low ^^ decide (bytes.length % 2 = 1)

theorem parityAfter_cons (low : Bool) (byte : UInt8) (bytes : List UInt8) :
    parityAfter low (byte :: bytes) = parityAfter (!low) bytes := by
  have hmod : decide ((bytes.length + 1) % 2 = 1) = !decide (bytes.length % 2 = 1) := by
    rw [← decide_not]
    exact decide_eq_decide.mpr (by omega)
  rw [parityAfter, parityAfter, List.length_cons, hmod]
  cases low <;> simp

/-- A sum can be taken in two parts, if the second knows where it begins. -/
theorem wordSum_append (low : Bool) (xs ys : List UInt8) :
    wordSum low (xs ++ ys) = wordSum low xs + wordSum (parityAfter low xs) ys := by
  induction xs generalizing low with
  | nil => cases low <;> simp [wordSum, parityAfter]
  | cons x xs ih => rw [List.cons_append, wordSum, ih, wordSum, parityAfter_cons, Nat.add_assoc]

/-- After a whole number of words the position is the same. -/
theorem parityAfter_even {low : Bool} {bytes : List UInt8} (even : bytes.length % 2 = 0) :
    parityAfter low bytes = low := by
  simp [parityAfter, even]

/-- A list of bytes sums to less than `2 ^ 15` for each of its bytes and one more. -/
theorem wordSum_le (low : Bool) (bytes : List UInt8) :
    wordSum low bytes ≤ 32768 * bytes.length + (if low then 0 else 32512) := by
  induction bytes generalizing low with
  | nil => exact Nat.zero_le _
  | cons byte bytes ih =>
      have hbyte : byte.toNat < 256 := byte.toNat_lt
      have htail := ih (!low)
      cases low with
      | false =>
          simp only [wordSum, List.length_cons, Bool.not_false, if_true, Bool.false_eq_true,
            if_false] at htail ⊢
          omega
      | true =>
          simp only [wordSum, List.length_cons, Bool.not_true, if_true, Bool.false_eq_true,
            if_false] at htail ⊢
          omega

/-- **A byte counts once or 256 times**, by its position, so a change of one byte changes the
sum by so many times its difference. -/
theorem wordSum_set (low : Bool) {bytes : List UInt8} {i : ℕ} (hi : i < bytes.length)
    (byte : UInt8) :
    ∃ weight, (weight = 1 ∨ weight = 256) ∧
      wordSum low (bytes.set i byte) + weight * bytes[i].toNat
        = wordSum low bytes + weight * byte.toNat := by
  induction bytes generalizing low i with
  | nil => exact absurd hi (Nat.not_lt_zero i)
  | cons first bytes ih =>
      cases i with
      | zero =>
          refine ⟨if low then 1 else 256, ?_, ?_⟩
          · cases low <;> simp
          · cases low
            · simp only [List.set_cons_zero, wordSum, List.getElem_cons_zero, Bool.false_eq_true,
                if_false]
              omega
            · simp only [List.set_cons_zero, wordSum, List.getElem_cons_zero, if_true]
              omega
      | succ i =>
          obtain ⟨weight, hweight, hsum⟩ := ih (!low) (Nat.lt_of_succ_lt_succ hi)
          refine ⟨weight, hweight, ?_⟩
          rw [List.set_cons_succ, wordSum, wordSum, List.getElem_cons_succ]
          omega

/-- Two numbers that differ by less than `b - 1` are not both multiples of it. -/
theorem not_both_multiples {b n n' d : ℕ} (hd : 0 < d) (hlt : d < b - 1)
    (differ : n' = n + d ∨ n = n' + d) (hn : n % (b - 1) = 0) : n' % (b - 1) ≠ 0 := by
  intro hn'
  have hmod : d % (b - 1) = 0 := by
    rcases differ with rfl | rfl
    · rwa [Nat.add_mod, hn, Nat.zero_add, Nat.mod_mod] at hn'
    · rwa [Nat.add_mod, hn', Nat.zero_add, Nat.mod_mod] at hn
  rw [Nat.mod_eq_of_lt hlt] at hmod
  omega

end OnesComplement
