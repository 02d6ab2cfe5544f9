import Meshway.Text.Digit
import Meshway.Toml.Table
set_option autoImplicit false

/-!
# Numbers, moments and truth values (SPEC §10.2)

The values of a configuration file that are written without quotes.  Digits
may be grouped by single underscores between them; a decimal number has no
leading zero, and an integer is a signed sixty-four-bit number.
-/

namespace Meshway.Toml.Scalar

open Text (isDigitOf number)

/-! ## Integers -/

/-- The digits of a number without the underscores that group them. -/
def ungroup? (isDigit : Char → Bool) : List Char → Option (List Char)
  | [] => none
  | [c] => if isDigit c then some [c] else none
  | c :: '_' :: cs => if isDigit c then (ungroup? isDigit cs).map (c :: ·) else none
  | c :: cs => if isDigit c then (ungroup? isDigit cs).map (c :: ·) else none

/-- A text without the sign at its front, and whether that is a minus. -/
def unsign : List Char → Bool × List Char
  | '-' :: cs => (true, cs)
  | '+' :: cs => (false, cs)
  | cs => (false, cs)

/-- Decimal digits without a leading zero. -/
def whole? (cs : List Char) : Option (List Char) :=
  (ungroup? Char.isDigit cs).filter fun ds => ds.length = 1 ∨ ds.head? ≠ some '0'

/-- The least number that has no sixty-four-bit form with a sign. -/
def signLimit : Nat := 0x8000000000000000

/-- A number in a base other than ten, which has no sign. -/
def based? (base : Nat) (cs : List Char) : Option Int :=
  ((ungroup? (isDigitOf base) cs).map (number base)).bind fun n =>
    if n < signLimit then some n else none

/-- An integer. -/
def integer? : List Char → Option Int
  | '0' :: 'x' :: cs => based? 16 cs
  | '0' :: 'o' :: cs => based? 8 cs
  | '0' :: 'b' :: cs => based? 2 cs
  | cs =>
    let (minus, cs) := unsign cs
    ((whole? cs).map (number 10)).bind fun n =>
      if minus then if n ≤ signLimit then some (-n) else none
      else if n < signLimit then some n else none

/-! ## Numbers with a fraction or an exponent -/

/-- The least number that is nearer to `2 ^ 1024` than to every smaller double. -/
def beyondDoubles : Nat := Nat.pow 2 1024 - Nat.pow 2 970

/-- Whether `m * 10 ^ e` is beyond the doubles. -/
def overflows (m : Nat) (e : Int) : Bool :=
  let digits : Int := (Nat.toDigits 10 m).length
  if m = 0 ∨ digits + e < 300 then false
  else if 320 < digits + e then true
  else beyondDoubles * Nat.pow 10 (-e).toNat ≤ m * Nat.pow 10 e.toNat

/-- The exponent after its letter. -/
def exponent? (cs : List Char) : Option Int :=
  let (minus, cs) := unsign cs
  (ungroup? Char.isDigit cs).map fun ds =>
    if minus then -(number 10 ds : Int) else number 10 ds

/-- Whether a text is a number with a fraction or an exponent.  One that is too large is refused
unless it is negative. -/
def isReal (cs : List Char) : Bool :=
  let (minus, cs) := unsign cs
  let isMark (c : Char) : Bool := c == 'e' || c == 'E'
  let (mantissa, power) := cs.span (!isMark ·)
  let (front, fraction) := mantissa.span (· != '.')
  if power = [] ∧ fraction = [] then cs = ['i', 'n', 'f'] ∨ cs = ['n', 'a', 'n']
  else
    let front := whole? front
    let fraction := if fraction = [] then some [] else ungroup? Char.isDigit (fraction.drop 1)
    let power := if power = [] then some 0 else exponent? (power.drop 1)
    match front, fraction, power with
    | some front, some fraction, some power =>
      minus || !overflows (number 10 (front ++ fraction)) (power - fraction.length)
    | _, _, _ => false

/-! ## Moments -/

/-- The number that two digits denote, when it is in a range. -/
def pair? (least most : Nat) (a b : Char) : Option Nat :=
  if a.isDigit ∧ b.isDigit ∧ least ≤ number 10 [a, b] ∧ number 10 [a, b] ≤ most then
    some (number 10 [a, b])
  else none

/-- The number of days of a month. -/
def daysIn (year month : Nat) : Nat :=
  if month = 2 then
    if year % 4 = 0 ∧ (year % 100 ≠ 0 ∨ year % 400 = 0) then 29 else 28
  else if month = 4 ∨ month = 6 ∨ month = 9 ∨ month = 11 then 30
  else 31

/-- What follows a date. -/
def afterDate? : List Char → Option (List Char)
  | y₁ :: y₂ :: y₃ :: y₄ :: '-' :: m₁ :: m₂ :: '-' :: d₁ :: d₂ :: cs =>
    if [y₁, y₂, y₃, y₄].all Char.isDigit then do
      let month ← pair? 1 12 m₁ m₂
      let _ ← pair? 1 (daysIn (number 10 [y₁, y₂, y₃, y₄]) month) d₁ d₂
      return cs
    else none
  | _ => none

/-- What follows a fraction of a second, if there is one. -/
def afterFraction? : List Char → Option (List Char)
  | '.' :: cs => if (cs.head?.any Char.isDigit) then some (cs.dropWhile Char.isDigit) else none
  | cs => some cs

/-- What follows a time of day. -/
def afterTime? : List Char → Option (List Char)
  | h₁ :: h₂ :: ':' :: m₁ :: m₂ :: ':' :: s₁ :: s₂ :: cs => do
    let _ ← pair? 0 23 h₁ h₂
    let _ ← pair? 0 59 m₁ m₂
    let _ ← pair? 0 60 s₁ s₂
    afterFraction? cs
  | _ => none

/-- Whether a text is an offset from universal time, or nothing. -/
def isOffset : List Char → Bool
  | [] | ['Z'] | ['z'] => true
  | [sign, h₁, h₂, ':', m₁, m₂] =>
    (sign == '+' || sign == '-') && (pair? 0 23 h₁ h₂).isSome && (pair? 0 59 m₁ m₂).isSome
  | _ => false

/-- Whether a text is a time of day that can stand after a date. -/
def isDayTime (cs : List Char) : Bool := (afterTime? cs).any isOffset

/-- Whether a text is a date and nothing else. -/
def isDate (cs : List Char) : Bool := afterDate? cs = some []

/-- Whether a text is a moment. -/
def isMoment (cs : List Char) : Bool :=
  afterTime? cs = some [] ||
    match afterDate? cs with
    | some [] => true
    | some (mark :: rest) => (mark == 'T' || mark == 't') && isDayTime rest
    | none => false

/-! ## All of them -/

/-- The value that a text without quotes and blanks denotes. -/
def ofChars? (cs : List Char) : Option Item :=
  if cs = ['t', 'r', 'u', 'e'] then some (.boolean true)
  else if cs = ['f', 'a', 'l', 's', 'e'] then some (.boolean false)
  else if isMoment cs then some .moment
  else if isReal cs then some .real
  else (integer? cs).map .integer

end Meshway.Toml.Scalar
