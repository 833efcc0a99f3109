import Mathlib.Algebra.Order.Ring.Nat
import Mathlib.Tactic.Common

/-!
# Unsigned 64-bit arithmetic

A `size_t` or `uint64_t` of the source is a natural number.  Sums and
differences that can leave the 64-bit range are written with `add64` and
`sub64`, which wrap around as the machine does; a plain `+` is used where a
counter counts bytes that really moved, a quantity that cannot reach `2^64`.

Which of the two a sum is written with is a statement about the code.  Where the source
could wrap around and a guard keeps it from doing so, the definition has `add64`, and the
guard is a hypothesis of the lemma that removes it (`add64_of_lt`, `sub64_of_le`).
-/

namespace Sponge

/-- Unsigned 64-bit addition. -/
def add64 (a b : ℕ) : ℕ := (a + b) % 2 ^ 64

/-- Unsigned 64-bit subtraction: a negative difference wraps around. -/
def sub64 (a b : ℕ) : ℕ := if b ≤ a then a - b else a + 2 ^ 64 - b

/-- A sum that fits is the sum. -/
theorem add64_of_lt {a b : ℕ} (h : a + b < 2 ^ 64) : add64 a b = a + b :=
  Nat.mod_eq_of_lt h

/-- A difference that is not negative is the difference. -/
theorem sub64_of_le {a b : ℕ} (h : b ≤ a) : sub64 a b = a - b := if_pos h

/-- A difference that is negative wraps around. -/
theorem sub64_of_lt {a b : ℕ} (h : a < b) : sub64 a b = a + 2 ^ 64 - b :=
  if_neg (by omega)

/-- `std::string::max_size()` is `2^63 - 1`, so a string has fewer than `2^63`
bytes. -/
def maxStringSize : ℕ := 2 ^ 63 - 1

end Sponge
