import Leapfrog.Decimal.Digits

/-!
# Written forms of a double

Four forms of a number occur in what this library writes: the *plain* form with the fewest digits
that read back, the *fixed* form with a given number of decimals, the *general* form with a given
number of significant digits, and the *exponential* form. The last three round the exact binary
value once, a tie going to the even digit.

`Style` holds what the plain and the general form decide differently.
-/

namespace Leapfrog.Decimal

/-- The choices of a form that is positional for moderate exponents. -/
structure Style where
  /-- The least exponent that is written positionally. -/
  least : Int
  /-- The first exponent beyond the ones that are written positionally. -/
  bound : Int
  /-- Whether a whole number keeps a decimal point and one zero. -/
  keepsPoint : Bool

/-- The plain form is positional from `0.0001` up to sixteen digits before the point and always
shows that the number is a double. -/
def Style.plain : Style := ⟨-4, 16, true⟩

/-- The general form is positional as long as its digits reach the point. -/
def Style.general (places : Nat) : Style := ⟨-4, places, false⟩

namespace Digits

/-- The digits as characters, as many as there are places. -/
def chars (d : Digits) : List Char :=
  let row := digitChars d.significand
  List.replicate (d.places - row.length) '0' ++ row

/-- The digits before and after the decimal point in positional notation. -/
def split (d : Digits) : List Char × List Char :=
  if d.exponent < 0 then
    (['0'], List.replicate (-d.exponent - 1).toNat '0' ++ d.chars)
  else
    let width := d.exponent.toNat + 1
    (d.chars.take width ++ List.replicate (width - d.chars.length) '0', d.chars.drop width)

end Digits

/-- A row of digits without the zeros at its end. -/
def trimZeros (digits : List Char) : List Char :=
  (digits.reverse.dropWhile (· == '0')).reverse

/-- Whole digits and decimals joined by a point, which is left out when there are no decimals. -/
def joinPoint (whole decimals : List Char) : List Char :=
  if decimals.isEmpty then whole else whole ++ '.' :: decimals

/-- An exponent: its sign always, and at least two digits. -/
def exponentChars (e : Int) : List Char :=
  let row := digitChars e.natAbs
  'e' :: (if e < 0 then '-' else '+') :: (List.replicate (2 - row.length) '0' ++ row)

/-- The sign in front of a number: only a minus is written. -/
def signChars (negative : Bool) : List Char := if negative then ['-'] else []

/-- Digits in exponential notation, with the decimals changed by `adjust`. -/
def exponentialChars (adjust : List Char → List Char) (d : Digits) : List Char :=
  joinPoint (d.chars.take 1) (adjust (d.chars.drop 1)) ++ exponentChars d.exponent

/-- Digits in a style: positional or exponential, the zeros at the end dropped. -/
def Style.write (style : Style) (d : Digits) : List Char :=
  if style.least ≤ d.exponent ∧ d.exponent < style.bound then
    let (whole, decimals) := d.split
    let kept := trimZeros decimals
    joinPoint whole (if kept.isEmpty && style.keepsPoint then ['0'] else kept)
  else exponentialChars trimZeros d

/-- How the numbers that have no digits are written. -/
structure Tokens where
  nan : List Char
  infinity : List Char

/-- The words for these numbers inside a sentence. -/
def Tokens.words : Tokens := ⟨['n', 'a', 'n'], ['i', 'n', 'f']⟩

/-- A double written by a rule for the magnitude `m * 2 ^ e` of a finite one. -/
def writeWith (tokens : Tokens) (magnitude : Nat → Int → List Char) (x : Float) : List Char :=
  match Binary64.ofFloat x with
  | .nan => tokens.nan
  | .infinite negative => signChars negative ++ tokens.infinity
  | .finite negative m e => signChars negative ++ magnitude m e

/-- The magnitude with the fewest digits that read back. -/
def plainMagnitude (m : Nat) (e : Int) : List Char :=
  if m = 0 then ['0', '.', '0'] else Style.plain.write (Digits.shortest m e)

/-- The magnitude with a fixed number of decimals. -/
def fixedMagnitude (decimals : Nat) (m : Nat) (e : Int) : List Char :=
  let (num, den) := Binary64.quotient m e
  let row := digitChars (roundHalfEven (num * Nat.pow 10 decimals) den)
  let padded := List.replicate (decimals + 1 - row.length) '0' ++ row
  joinPoint (padded.take (padded.length - decimals)) (padded.drop (padded.length - decimals))

/-- The magnitude rounded to a number of significant digits, without zeros at the end. -/
def generalMagnitude (places : Nat) (m : Nat) (e : Int) : List Char :=
  let (num, den) := Binary64.quotient m e
  (Style.general places).write (Digits.rounded places num den)

/-- The magnitude in exponential notation with a fixed number of decimals. -/
def exponentialMagnitude (decimals : Nat) (m : Nat) (e : Int) : List Char :=
  let (num, den) := Binary64.quotient m e
  exponentialChars id (Digits.rounded (decimals + 1) num den)

/-- The plain form: the fewest digits that read back as the same double. -/
def plain (x : Float) : String := String.ofList (writeWith .words plainMagnitude x)

/-- The fixed form: all whole digits and a given number of decimals. -/
def fixed (decimals : Nat) (x : Float) : String :=
  String.ofList (writeWith .words (fixedMagnitude decimals) x)

/-- The general form: a given number of significant digits, as few characters as they need. -/
def general (places : Nat) (x : Float) : String :=
  String.ofList (writeWith .words (generalMagnitude places) x)

/-- The exponential form: one digit before the point and a given number after it. -/
def exponential (decimals : Nat) (x : Float) : String :=
  String.ofList (writeWith .words (exponentialMagnitude decimals) x)

/-- A whole number as characters. -/
def wholeChars (n : Int) : List Char := signChars (decide (n < 0)) ++ digitChars n.natAbs

/-- A whole number: all its digits, after a minus if it is negative. -/
def whole (n : Int) : String := String.ofList (wholeChars n)

/-- How many digits of a whole number are written at most. -/
def maxDigits : Nat := 4300

end Leapfrog.Decimal
