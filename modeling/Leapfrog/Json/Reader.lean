import Leapfrog.Json.Printer

/-!
# Reading documents

The reader accepts JSON together with the three words `NaN`, `Infinity` and `-Infinity`. A number
with a point or an exponent is a double, the one nearest to the decimal; any other number is a
whole number of any size. Members keep their order. A text may hold any character but a control
character, and the escapes of two UTF-16 surrogates stand for one character.
-/

namespace Leapfrog.Json

open Leapfrog.Decimal (Binary64)

/-- The blanks between the parts of a document. -/
def isBlank (c : Char) : Bool := c = ' ' || c = '\n' || c = '\r' || c = '\t'

/-- The text after its leading blanks. -/
def skipBlanks (cs : List Char) : List Char := cs.dropWhile isBlank

/-- The characters of numbers and of the words for constants. -/
def isWordChar (c : Char) : Bool := c.isAlphanum || c = '+' || c = '-' || c = '.'

/-- The whole number that a row of decimal digits stands for. -/
def digitsValue (digits : List Char) : Nat :=
  digits.foldl (fun value c => 10 * value + (c.toNat - '0'.toNat)) 0

/-- The leading digits of a text, at least one, and the rest. -/
def takeDigits? (cs : List Char) : Option (List Char × List Char) :=
  match cs.takeWhile Char.isDigit with
  | [] => none
  | digits => some (digits, cs.dropWhile Char.isDigit)

/-- An optional minus sign. -/
def takeMinus : List Char → Bool × List Char
  | '-' :: rest => (true, rest)
  | cs => (false, cs)

/-- The decimals after a point, if there is one. -/
def takeDecimals? : List Char → Option (Option (List Char) × List Char)
  | '.' :: rest => (takeDigits? rest).map fun (digits, rest) => (some digits, rest)
  | cs => some (none, cs)

/-- An exponent with its sign. -/
def signedExponent? (cs : List Char) : Option (Int × List Char) :=
  let (negative, cs) := match cs with
    | '+' :: rest => (false, rest)
    | other => takeMinus other
  (takeDigits? cs).map fun (digits, rest) =>
    (if negative then -(digitsValue digits : Int) else digitsValue digits, rest)

/-- The exponent after its letter, if there is one. -/
def takeExponent? : List Char → Option (Option Int × List Char)
  | 'e' :: rest | 'E' :: rest => (signedExponent? rest).map fun (e, rest) => (some e, rest)
  | cs => some (none, cs)

/-- A number that fills a word. -/
def number? (word : List Char) : Option Json := do
  let (negative, rest) := takeMinus word
  let (wholeDigits, rest) ← takeDigits? rest
  guard (wholeDigits.length = 1 ∨ wholeDigits.head? ≠ some '0')
  let (decimals, rest) ← takeDecimals? rest
  let (exponent, rest) ← takeExponent? rest
  guard rest.isEmpty
  match decimals, exponent with
  | none, none =>
    let n : Int := digitsValue wholeDigits
    some (.whole (if negative then -n else n))
  | _, _ =>
    let fraction := decimals.getD []
    some (.real (Binary64.ofDecimal negative (digitsValue (wholeDigits ++ fraction))
      (exponent.getD 0 - fraction.length)))

/-- A constant or a number that fills a word. -/
def word? (word : List Char) : Option Json :=
  if word = ['n', 'u', 'l', 'l'] then some .null
  else if word = ['t', 'r', 'u', 'e'] then some (.bool true)
  else if word = ['f', 'a', 'l', 's', 'e'] then some (.bool false)
  else if word = tokens.nan then some (.real (0.0 / 0.0))
  else if word = tokens.infinity then some (.real (Binary64.toFloat false Binary64.infinityRank))
  else if word = '-' :: tokens.infinity then
    some (.real (Binary64.toFloat true Binary64.infinityRank))
  else number? word

/-- The value of a hexadecimal digit. -/
def hexValue? (c : Char) : Option Nat :=
  if '0' ≤ c ∧ c ≤ '9' then some (c.toNat - '0'.toNat)
  else if 'a' ≤ c ∧ c ≤ 'f' then some (c.toNat - 'a'.toNat + 10)
  else if 'A' ≤ c ∧ c ≤ 'F' then some (c.toNat - 'A'.toNat + 10)
  else none

/-- The UTF-16 unit of four hexadecimal digits. -/
def unit? (a b c d : Char) : Option Nat := do
  let a ← hexValue? a
  let b ← hexValue? b
  let c ← hexValue? c
  let d ← hexValue? d
  return 0x1000 * a + 0x100 * b + 0x10 * c + d

/-- The character of an escape letter. -/
def escape? : Char → Option Char
  | '"' => some '"'
  | '\\' => some '\\'
  | '/' => some '/'
  | 'n' => some '\n'
  | 'r' => some '\r'
  | 't' => some '\t'
  | 'b' => some '\x08'
  | 'f' => some '\x0c'
  | _ => none

/-- The character of one UTF-16 unit or of a surrogate pair. -/
def charOfUnits? : Nat → Option Nat → Option Char
  | unit, none => if 0xD800 ≤ unit ∧ unit < 0xE000 then none else some (Char.ofNat unit)
  | high, some low =>
    if 0xD800 ≤ high ∧ high < 0xDC00 ∧ 0xDC00 ≤ low ∧ low < 0xE000 then
      some (Char.ofNat (0x10000 + (high - 0xD800) * 0x400 + (low - 0xDC00)))
    else none

/-- The first character of a quoted text and what follows it. -/
def char? : List Char → Option (Char × List Char)
  | '\\' :: 'u' :: a :: b :: c :: d :: rest => do
    let unit ← unit? a b c d
    if 0xD800 ≤ unit ∧ unit < 0xDC00 then
      match rest with
      | '\\' :: 'u' :: a :: b :: c :: d :: rest =>
        return (← charOfUnits? unit (some (← unit? a b c d)), rest)
      | _ => none
    else return (← charOfUnits? unit none, rest)
  | '\\' :: c :: rest => (escape? c).map (·, rest)
  | c :: rest => if c < ' ' then none else some (c, rest)
  | [] => none

/-- The characters of a quoted text up to its closing quote, and what follows the quote. -/
def textTail? : Nat → List Char → Option (List Char × List Char)
  | 0, _ => none
  | _ + 1, '"' :: rest => some ([], rest)
  | fuel + 1, cs => do
    let (c, rest) ← char? cs
    let (more, rest) ← textTail? fuel rest
    return (c :: more, rest)

/-- A quoted text after its opening quote. Every character takes at least one, so the length of the
rest bounds the work. -/
def text? (cs : List Char) : Option (String × List Char) :=
  (textTail? (cs.length + 1) cs).map fun (content, rest) => (String.ofList content, rest)

mutual

/-- A document and what follows it. -/
def value? : Nat → List Char → Option (Json × List Char)
  | 0, _ => none
  | fuel + 1, cs =>
    match skipBlanks cs with
    | '"' :: rest => (text? rest).map fun (s, rest) => (.text s, rest)
    | '[' :: rest =>
      match skipBlanks rest with
      | ']' :: rest => some (.list [], rest)
      | _ => do
        let (item, rest) ← value? fuel rest
        let (items, rest) ← itemsTail? fuel rest
        return (.list (item :: items), rest)
    | '{' :: rest =>
      match skipBlanks rest with
      | '}' :: rest => some (.record [], rest)
      | _ => do
        let (first, rest) ← pair? fuel rest
        let (members, rest) ← membersTail? fuel rest
        return (.record (first :: members), rest)
    | other => (word? (other.takeWhile isWordChar)).map (·, other.dropWhile isWordChar)

/-- A member: its name, a colon and its value. -/
def pair? : Nat → List Char → Option ((String × Json) × List Char)
  | 0, _ => none
  | fuel + 1, cs =>
    match skipBlanks cs with
    | '"' :: rest => do
      let (name, rest) ← text? rest
      match skipBlanks rest with
      | ':' :: rest =>
        let (value, rest) ← value? fuel rest
        return ((name, value), rest)
      | _ => none
    | _ => none

/-- The items after the first one, up to the closing bracket. -/
def itemsTail? : Nat → List Char → Option (List Json × List Char)
  | 0, _ => none
  | fuel + 1, cs =>
    match skipBlanks cs with
    | ']' :: rest => some ([], rest)
    | ',' :: rest => do
      let (item, rest) ← value? fuel rest
      let (items, rest) ← itemsTail? fuel rest
      return (item :: items, rest)
    | _ => none

/-- The members after the first one, up to the closing brace. -/
def membersTail? : Nat → List Char → Option (List (String × Json) × List Char)
  | 0, _ => none
  | fuel + 1, cs =>
    match skipBlanks cs with
    | '}' :: rest => some ([], rest)
    | ',' :: rest => do
      let (first, rest) ← pair? fuel rest
      let (members, rest) ← membersTail? fuel rest
      return (first :: members, rest)
    | _ => none

end

/-- The document that a text holds and nothing else. Every step of the reader but one takes a
character, so twice the length of the text is enough fuel. -/
def parse? (text : String) : Option Json := do
  let cs := text.toList
  let (document, rest) ← value? (2 * cs.length + 2) cs
  guard (skipBlanks rest).isEmpty
  return document

end Leapfrog.Json
