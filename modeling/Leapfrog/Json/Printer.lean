import Leapfrog.Decimal.Text
import Leapfrog.Json.Basic

/-!
# Writing documents

A document is written in ASCII alone: any other character becomes an escape of its UTF-16 units.
Doubles take the plain form, with words of their own for the values JSON has no number for. With an
indentation every item starts a line of its own; without one the document is a single line.
-/

namespace Leapfrog.Json

open Leapfrog.Decimal (Tokens wholeChars)

/-- How deep each level is indented, or that the document is written on one line. -/
inductive Layout where
  | line
  | indented (width : Nat)
  deriving DecidableEq, Repr

/-- The words for the doubles that JSON has no number for. -/
def tokens : Tokens :=
  ⟨['N', 'a', 'N'], ['I', 'n', 'f', 'i', 'n', 'i', 't', 'y']⟩

/-- A double: the plain form of a finite one. -/
def realChars (x : Float) : List Char :=
  Decimal.writeWith tokens Decimal.plainMagnitude x

/-- A UTF-16 unit as an escape of four hexadecimal digits. -/
def unitChars (unit : Nat) : List Char :=
  let row := Nat.toDigits 16 unit
  '\\' :: 'u' :: (List.replicate (4 - row.length) '0' ++ row)

/-- The UTF-16 units of a character. -/
def units (c : Char) : List Nat :=
  let n := c.toNat
  if n < 0x10000 then [n]
  else [0xD800 + (n - 0x10000) / 0x400, 0xDC00 + (n - 0x10000) % 0x400]

/-- A character inside a quoted text. -/
def charChars (c : Char) : List Char :=
  if c = '"' then ['\\', '"']
  else if c = '\\' then ['\\', '\\']
  else if c = '\n' then ['\\', 'n']
  else if c = '\r' then ['\\', 'r']
  else if c = '\t' then ['\\', 't']
  else if c = '\x08' then ['\\', 'b']
  else if c = '\x0c' then ['\\', 'f']
  else if ' ' ≤ c ∧ c ≤ '~' then [c]
  else (units c).flatMap unitChars

/-- A quoted text. -/
def textChars (s : String) : List Char :=
  '"' :: (s.toList.flatMap charChars ++ ['"'])

/-- What stands before an item at a given depth, after the comma or the opening bracket. -/
def Layout.newline (layout : Layout) (depth : Nat) : List Char :=
  match layout with
  | .line => []
  | .indented width => '\n' :: List.replicate (width * depth) ' '

/-- What separates two items at a given depth. -/
def Layout.separator (layout : Layout) (depth : Nat) : List Char :=
  match layout with
  | .line => [',', ' ']
  | .indented _ => ',' :: layout.newline depth

mutual

/-- A document at a given depth. -/
def chars (layout : Layout) (depth : Nat) : Json → List Char
  | .null => ['n', 'u', 'l', 'l']
  | .bool true => ['t', 'r', 'u', 'e']
  | .bool false => ['f', 'a', 'l', 's', 'e']
  | .whole n => wholeChars n
  | .real x => realChars x
  | .text s => textChars s
  | .list [] => ['[', ']']
  | .list (item :: items) =>
    '[' :: (layout.newline (depth + 1) ++ (chars layout (depth + 1) item ++
      (itemsChars layout (depth + 1) items ++ (layout.newline depth ++ [']']))))
  | .record [] => ['{', '}']
  | .record ((name, value) :: members) =>
    '{' :: (layout.newline (depth + 1) ++ (textChars name ++ (':' :: ' ' ::
      (chars layout (depth + 1) value ++
        (membersChars layout (depth + 1) members ++ (layout.newline depth ++ ['}']))))))

/-- The items after the first one, each after its separator. -/
def itemsChars (layout : Layout) (depth : Nat) : List Json → List Char
  | [] => []
  | item :: items =>
    layout.separator depth ++ (chars layout depth item ++ itemsChars layout depth items)

/-- The members after the first one, each after its separator. -/
def membersChars (layout : Layout) (depth : Nat) : List (String × Json) → List Char
  | [] => []
  | (name, value) :: members =>
    layout.separator depth ++ (textChars name ++ (':' :: ' ' ::
      (chars layout depth value ++ membersChars layout depth members)))

end

/-- The text of a document. -/
def print (layout : Layout) (document : Json) : String :=
  String.ofList (chars layout 0 document)

end Leapfrog.Json
