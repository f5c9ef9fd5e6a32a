/-!
Sets of characters given as ascending closed ranges of their numbers.
-/

namespace QueryLabel.Text

/-- Closed ranges of character numbers, ascending and apart. -/
abbrev Ranges := List (Nat × Nat)

/-- Whether a character lies in one of the ranges. -/
def Ranges.contains (ranges : Ranges) (c : Char) : Bool :=
  ranges.any fun r => r.1 ≤ c.toNat && c.toNat ≤ r.2

/-- The check on the data of a table: every range is nonempty and begins beyond the one before. -/
def Ranges.Ascending : Ranges → Bool
  | [] => true
  | [r] => r.1 ≤ r.2
  | r :: s :: rest => r.1 ≤ r.2 && r.2 < s.1 && Ranges.Ascending (s :: rest)

end QueryLabel.Text
