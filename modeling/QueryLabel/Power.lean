/-!
Powers of two and of ten.  Numbers in binary are counted in the first ones, and their decimals in
the second ones.
-/

namespace QueryLabel

/-- Two to a power. -/
def twoPow (k : Nat) : Nat := Nat.pow 2 k

/-- Ten to a power. -/
def tenPow (k : Nat) : Nat := Nat.pow 10 k

theorem twoPow_pos (k : Nat) : 0 < twoPow k :=
  Nat.two_pow_pos k

theorem twoPow_add (a b : Nat) : twoPow (a + b) = twoPow a * twoPow b :=
  Nat.pow_add 2 a b

theorem twoPow_dvd_twoPow {a b : Nat} (h : a ≤ b) : twoPow a ∣ twoPow b :=
  Nat.pow_dvd_pow 2 h

theorem log2_twoPow (k : Nat) : (twoPow k).log2 = k :=
  Nat.log2_two_pow

/-- A number has at most `k` binary digits exactly when it is below `twoPow k`. -/
theorem log2_lt_iff {n : Nat} (hn : n ≠ 0) (k : Nat) : n.log2 < k ↔ n < twoPow k :=
  Nat.log2_lt hn

theorem tenPow_pos (k : Nat) : 0 < tenPow k :=
  Nat.pow_pos (by decide)

theorem tenPow_add (a b : Nat) : tenPow (a + b) = tenPow a * tenPow b :=
  Nat.pow_add 10 a b

end QueryLabel
