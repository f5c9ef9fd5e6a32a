import QueryLabel.Binary64.Scaled
import QueryLabel.Text.Basic

/-!
Number literals as binary64 numbers where a document wants one.  The digits are gathered in a
64-bit significand; those that do not fit any more count only by their place.
-/

namespace QueryLabel.Json

/-- The bound on a significand. -/
def significandLimit : Nat := 0x10000000000000000

/-- The bound on the magnitude of an exponent. -/
def exponentLimit : Nat := 0x80000000

/-- Digits gathered so far, and how many were left out because they do not fit. -/
structure Significand where
  value : Nat
  left : Nat
deriving Repr, DecidableEq

/-- Gather digits: the first one that does not fit, and all behind it, are left out. -/
def gather (value : Nat) : Text → Significand
  | [] => ⟨value, 0⟩
  | d :: rest =>
      let next := value * 10 + Text.readDecimal [d]
      if next < significandLimit then gather next rest else ⟨value, (d :: rest).length⟩

/-- Read the digits of an exponent.  The first one that makes it too large ends the reading with
the number of digits behind it. -/
def gatherExponent (value : Nat) : Text → Except Nat Nat
  | [] => .ok value
  | d :: rest =>
      let next := value * 10 + Text.readDecimal [d]
      if next < exponentLimit then gatherExponent next rest else .error rest.length

/-- Split a literal in its normal form: sign, whole digits, fraction digits, sign and digits of the
exponent. -/
structure LiteralParts where
  negative : Bool
  whole : Text
  fraction : Text
  negativeExponent : Bool
  exponent : Text
deriving Repr, DecidableEq

/-- The parts of a literal in its normal form. -/
def LiteralParts.ofLiteral (literal : Text) : LiteralParts :=
  let negative := literal.head? = some '-'
  let digits := if negative then literal.drop 1 else literal
  let mantissa := digits.takeWhile (· ≠ 'e')
  let power := (digits.dropWhile (· ≠ 'e')).drop 1
  { negative
    whole := mantissa.takeWhile (· ≠ '.')
    fraction := (mantissa.dropWhile (· ≠ '.')).drop 1
    negativeExponent := power.head? = some '-'
    exponent := power.drop 1 }

/-- The number that a literal stands for; if it is out of range, how many characters of the
literal come behind the one that shows it. -/
def scoreOfLiteral (literal : Text) : Except Nat Binary64 :=
  let parts := LiteralParts.ofLiteral literal
  let whole := gather 0 parts.whole
  let all := gather whole.value parts.fraction
  let exponent : Int := whole.left - (parts.fraction.length - all.left : Nat)
  let scaled (e : Int) : Except Nat Binary64 :=
    match Binary64.ofScaled? parts.negative all.value e with
    | some x => .ok x
    | none => .error 0
  match gatherExponent 0 parts.exponent with
  | .ok e => scaled (if parts.negativeExponent then exponent - e else exponent + e)
  | .error behind =>
      if all.value ≠ 0 ∧ ¬ parts.negativeExponent then .error behind
      else .ok (.zero parts.negative)

example : (scoreOfLiteral "-0".toList).toOption = some (.zero true) := by decide +kernel

end QueryLabel.Json
