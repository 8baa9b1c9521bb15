import Leapfrog.Text.Printable

/-!
# Quoted names

A name inside a sentence stands between quotes: single ones, or double ones when the name holds a
single quote and no double one. The quote, the backslash and the characters that are not printable
are escaped, so a quoted name is one line and shows every character.
-/

namespace Leapfrog.Text

/-- The quote that encloses a name. -/
def quoteFor (name : List Char) : Char :=
  if name.contains '\'' && !name.contains '"' then '"' else '\''

/-- A code point as `width` hexadecimal digits after a backslash and a letter. -/
def hexEscape (letter : Char) (width : Nat) (code : Nat) : List Char :=
  let row := Nat.toDigits 16 code
  '\\' :: letter :: (List.replicate (width - row.length) '0' ++ row)

/-- A character of a name enclosed by `quote`. -/
def quotedChar (quote : Char) (c : Char) : List Char :=
  if c = quote ∨ c = '\\' then ['\\', c]
  else if c = '\n' then ['\\', 'n']
  else if c = '\r' then ['\\', 'r']
  else if c = '\t' then ['\\', 't']
  else if isPrintable c then [c]
  else if c.toNat < 0x100 then hexEscape 'x' 2 c.toNat
  else if c.toNat < 0x10000 then hexEscape 'u' 4 c.toNat
  else hexEscape 'U' 8 c.toNat

/-- A name between quotes. -/
def quoted (name : String) : String :=
  let quote := quoteFor name.toList
  String.ofList (quote :: (name.toList.flatMap (quotedChar quote) ++ [quote]))

end Leapfrog.Text
