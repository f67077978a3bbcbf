/-
  ChainQuery.Text.Decimal — whole numbers as decimal text, read against a limit.

  Reading goes from the left and stops at the first fault: a character that is no
  digit, or a digit that takes the number past the limit. Leading zeros and one
  leading plus are accepted.
-/

namespace ChainQuery

inductive DecimalError where
  | empty
  | badDigit
  | tooLarge
  | tooSmall
  deriving DecidableEq, Repr

def DecimalError.message : DecimalError → String
  | .empty => "cannot parse integer from empty string"
  | .badDigit => "invalid digit found in string"
  | .tooLarge => "number too large to fit in target type"
  | .tooSmall => "number too small to fit in target type"

namespace Decimal

/-- The number that `n` becomes when the digits follow it; `beyond` is the error past `limit`. -/
def digits (limit : Nat) (beyond : DecimalError) (n : Nat) : List Char → Except DecimalError Nat
  | [] => .ok n
  | c :: cs =>
    if c.isDigit then
      let n := 10 * n + (c.toNat - '0'.toNat)
      if limit < n then .error beyond else digits limit beyond n cs
    else .error .badDigit

/-- At least one digit. -/
def unsigned (limit : Nat) (beyond : DecimalError) : List Char → Except DecimalError Nat
  | [] => .error .badDigit
  | cs => digits limit beyond 0 cs

/-- A number from zero to `limit`. -/
def natural (limit : Nat) (s : String) : Except DecimalError Nat :=
  match s.toList with
  | [] => .error .empty
  | '+' :: cs => unsigned limit .tooLarge cs
  | cs => unsigned limit .tooLarge cs

/-- A number from `-limit - 1` to `limit`. -/
def integer (limit : Nat) (s : String) : Except DecimalError Int :=
  match s.toList with
  | [] => .error .empty
  | '+' :: cs => (unsigned limit .tooLarge cs).map Int.ofNat
  | '-' :: cs => (unsigned (limit + 1) .tooSmall cs).map fun n => -(n : Int)
  | cs => (unsigned limit .tooLarge cs).map Int.ofNat

end Decimal

end ChainQuery
