/-
  ChainQuery.Settings.File.Bare — values that stand in a settings file without quotes:
  truth values, numbers, dates and times.

  Single underscores may separate digits. A whole number has 64 bits, and no leading
  zero unless it is written in another base. A number with a fraction or an exponent
  must not be so large that it stands for infinity; below all others it stands for minus
  infinity, which is allowed, and both have names. A date is one of the calendar, and a
  minute has up to sixty-one seconds. A time can follow its date, after a T or a space,
  and then an offset can follow the time.
-/

import ChainQuery.Settings.Value

namespace ChainQuery.Settings.File

/-! ## Digits -/

/-- Digits in which single underscores may separate. -/
def isDigits (isDigit : Char → Bool) : List Char → Bool
  | [] => false
  | [c] => isDigit c
  | c :: '_' :: rest => isDigit c && isDigits isDigit rest
  | c :: rest => isDigit c && isDigits isDigit rest

def withoutUnderscores (cs : List Char) : List Char := cs.filter (· ≠ '_')

def digitsValue? (base : Nat) (cs : List Char) : Option Nat :=
  (withoutUnderscores cs).foldlM
    (fun n c => (Text.hexDigit? c).bind fun d => if d < base then some (base * n + d) else none) 0

/-! ## Whole numbers -/

def isBased (base : Nat) (cs : List Char) : Bool :=
  isDigits Text.isHexDigit cs && (digitsValue? base cs).any (· < 0x8000000000000000)

/-- Decimal digits without a leading zero. -/
def isWhole (cs : List Char) : Bool :=
  isDigits Char.isDigit cs && (cs = ['0'] || cs.head? ≠ some '0')

def isWholeUpTo (limit : Nat) (cs : List Char) : Bool := isWhole cs && (digitsValue? 10 cs).any (· ≤ limit)

def isInteger : List Char → Bool
  | '0' :: 'x' :: cs => isBased 16 cs
  | '0' :: 'o' :: cs => isBased 8 cs
  | '0' :: 'b' :: cs => isBased 2 cs
  | '+' :: cs => isWholeUpTo 0x7fffffffffffffff cs
  | '-' :: cs => isWholeUpTo 0x8000000000000000 cs
  | cs => isWholeUpTo 0x7fffffffffffffff cs

/-! ## Numbers with a fraction or an exponent -/

/-- Half way between the largest number of 64 bits and the power of two above it. -/
def overflow : Nat := (0x40000000000000 - 1) <<< 970

/-- Whether `m` times ten to the `e` is not rounded to infinity. -/
def isFinite (m : Nat) (e : Int) : Bool :=
  let digits := (Nat.toDigits 10 m).length
  let places : Int := digits + e
  -- of as many digits before the point as `overflow` has, it takes the number itself to tell
  m = 0 || places < 309 ||
    (places = 309 && m * Nat.pow 10 (309 - digits) < overflow * Nat.pow 10 (digits - 309))

def isSpacedDigit (c : Char) : Bool := c.isDigit || c = '_'

/-- The digits after a point, if there is one, and what follows. -/
def fraction : List Char → Option (List Char) × List Char
  | '.' :: cs => (some (cs.takeWhile isSpacedDigit), cs.dropWhile isSpacedDigit)
  | cs => (none, cs)

/-- The power of ten that an exponent stands for, or none at all. -/
def exponent? : List Char → Option Int
  | [] => some 0
  | e :: cs =>
    let (sign, digits) : Int × List Char :=
      match cs with
      | '+' :: digits => (1, digits)
      | '-' :: digits => (-1, digits)
      | digits => (1, digits)
    if (e = 'e' || e = 'E') && isDigits Char.isDigit digits then (digitsValue? 10 digits).map (sign * ·) else none

/-- A number with a fraction, an exponent or both, which is finite unless it may be `large`. -/
def isFractional (large : Bool) (cs : List Char) : Bool :=
  let whole := cs.takeWhile isSpacedDigit
  let (places, rest) := fraction (cs.dropWhile isSpacedDigit)
  let digits := withoutUnderscores (places.getD [])
  isWhole whole && places.all (isDigits Char.isDigit) && (places.isSome || !rest.isEmpty) &&
    match exponent? rest, digitsValue? 10 (whole ++ digits) with
    | some e, some m => large || isFinite m (e - digits.length)
    | _, _ => false

/-- The names of infinity and of what is no number. -/
def isNamed (cs : List Char) : Bool := cs = "inf".toList || cs = "nan".toList

def isFloat : List Char → Bool
  | '+' :: cs => isFractional false cs || isNamed cs
  | '-' :: cs => isFractional true cs || isNamed cs
  | cs => isFractional false cs || isNamed cs

/-! ## Dates and times -/

/-- The number that `n` digits write, if it is one from `first` to `last`, and what follows. -/
def numberIn? (n first last : Nat) (cs : List Char) : Option (Nat × List Char) := do
  let digits := cs.take n
  if digits.length = n && digits.all Char.isDigit then
    let x ← digitsValue? 10 digits
    if first ≤ x && x ≤ last then some (x, cs.drop n) else none
  else none

def after? (mark : Char) : List Char → Option (List Char)
  | [] => none
  | c :: cs => if c = mark then some cs else none

def isLeapYear (year : Nat) : Bool := year % 4 = 0 && (year % 100 ≠ 0 || year % 400 = 0)

def daysOf (year month : Nat) : Nat :=
  if month = 2 then if isLeapYear year then 29 else 28
  else if month = 4 || month = 6 || month = 9 || month = 11 then 30
  else 31

/-- What follows a date. -/
def afterDate? (cs : List Char) : Option (List Char) := do
  let (year, cs) ← numberIn? 4 0 9999 cs
  let (month, cs) ← numberIn? 2 1 12 (← after? '-' cs)
  let (_, cs) ← numberIn? 2 1 (daysOf year month) (← after? '-' cs)
  return cs

/-- What follows a time of day. -/
def afterTime? (cs : List Char) : Option (List Char) := do
  let (_, cs) ← numberIn? 2 0 23 cs
  let (_, cs) ← numberIn? 2 0 59 (← after? ':' cs)
  let (_, cs) ← numberIn? 2 0 60 (← after? ':' cs)
  match cs with
  | '.' :: cs => if (cs.takeWhile Char.isDigit).isEmpty then none else some (cs.dropWhile Char.isDigit)
  | cs => some cs

def isOffset : List Char → Bool
  | ['Z'] => true
  | ['z'] => true
  | sign :: cs =>
    let rest := do
      let (_, cs) ← numberIn? 2 0 23 cs
      let (_, cs) ← numberIn? 2 0 59 (← after? ':' cs)
      return cs
    (sign = '+' || sign = '-') && rest = some []
  | [] => false

def isDate (cs : List Char) : Bool := afterDate? cs = some []

def isTime (cs : List Char) : Bool := afterTime? cs = some []

/-- A time of day that stands after its date. -/
def isTimeOfDate (cs : List Char) : Bool := (afterTime? cs).any fun rest => rest.isEmpty || isOffset rest

/-- A date with its time in one word. -/
def isDateTime (cs : List Char) : Bool :=
  match afterDate? cs with
  | some (mark :: cs) => (mark = 'T' || mark = 't') && isTimeOfDate cs
  | _ => false

/-! ## Words -/

/-- The characters of words without quotes. -/
def isBareChar (c : Char) : Bool := c.isAlphanum || c = '_' || c = '-' || c = '+' || c = '.' || c = ':'

def wordValue? (word : List Char) : Option Value :=
  if word = "true".toList then some (.truth true)
  else if word = "false".toList then some (.truth false)
  else if isInteger word || isFloat word || isDate word || isTime word || isDateTime word then some .other
  else none

/-- A value without quotes and what follows it. -/
def bareValue? (cs : List Char) : Option (Value × List Char) := do
  let rest := cs.dropWhile isBareChar
  let value ← wordValue? (cs.takeWhile isBareChar)
  match rest with
  | ' ' :: more =>
    if isDate (cs.takeWhile isBareChar) && isTimeOfDate (more.takeWhile isBareChar) then
      return (value, more.dropWhile isBareChar)
    else return (value, rest)
  | _ => return (value, rest)

end ChainQuery.Settings.File
