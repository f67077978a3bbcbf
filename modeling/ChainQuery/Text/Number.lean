/-
  ChainQuery.Text.Number — numbers as text: digits, which a point and an exponent may
  join.

  At least one digit stands before or after the point; none need stand on both sides.
  A sign may come first, also in the exponent. Infinity and what is not a number have
  names, in letters of either case.
-/

namespace ChainQuery.Text

def withoutSign : List Char → List Char
  | '+' :: cs => cs
  | '-' :: cs => cs
  | cs => cs

def isDigits (cs : List Char) : Bool := !cs.isEmpty && cs.all Char.isDigit

/-- The whole part and the fraction, each of which may be empty, and what follows them. -/
def fractionParts (cs : List Char) : List Char × List Char × List Char :=
  let whole := cs.takeWhile Char.isDigit
  match cs.dropWhile Char.isDigit with
  | '.' :: rest => (whole, rest.takeWhile Char.isDigit, rest.dropWhile Char.isDigit)
  | rest => (whole, [], rest)

/-- A number in digits, without a sign. -/
def isDecimal (cs : List Char) : Bool :=
  let (whole, fraction, rest) := fractionParts cs
  (!whole.isEmpty || !fraction.isEmpty) &&
    match rest with
    | [] => true
    | e :: exponent => (e = 'e' || e = 'E') && isDigits (withoutSign exponent)

def namedNumbers : List String := ["inf", "infinity", "nan"]

def isNumber (cs : List Char) : Bool :=
  let cs := withoutSign cs
  isDecimal cs || namedNumbers.contains (String.ofList (cs.map Char.toLower))

end ChainQuery.Text
