/-!
# Lines

Text for people is written line by line, up to the first line that cannot be written. A column is
padded on the right to its width, counted in code points, and is never cut.
-/

namespace Leapfrog.Text

/-- A text padded with blanks on the right. -/
def padRight (width : Nat) (s : String) : String :=
  s ++ String.ofList (List.replicate (width - s.length) ' ')

/-- A whole number padded with zeros on the left. -/
def padZeros (width : Nat) (n : Nat) : String :=
  let digits := Nat.toDigits 10 n
  String.ofList (List.replicate (width - digits.length) '0' ++ digits)

/-- A rule of one repeated character across the page. -/
def rule (c : Char) : String := String.ofList (List.replicate 60 c)

/-- Lines, each closed by a line feed. -/
def unlines (lines : List String) : String :=
  String.join (lines.map (· ++ "\n"))

/-- The lines that are written when they are made one after the other, and the fault of the first
that cannot be made. -/
def written {φ : Type} : List (Except φ String) → List String × Option φ
  | [] => ([], none)
  | .error fault :: _ => ([], some fault)
  | .ok line :: rest =>
    let (lines, fault?) := written rest
    (line :: lines, fault?)

end Leapfrog.Text
