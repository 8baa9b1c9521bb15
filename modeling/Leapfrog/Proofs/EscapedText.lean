import Leapfrog.Json.Reader

/-!
# Quoted texts

Each character of a quoted text is read back from what is written for it: as itself, as an escape with
a letter, as a unit of four hexadecimal digits or as a pair of surrogates. What is written is ASCII
alone, and none of it begins with a quote, so the text ends where its closing quote stands.
-/

namespace Leapfrog.Json

/-- A character of the first half of a byte. -/
def IsAscii (c : Char) : Prop := c.toNat < 128

instance : DecidablePred IsAscii := fun c => inferInstanceAs (Decidable (c.toNat < 128))

/-- Characters that are ASCII by inspection. -/
theorem isAscii_of_all {cs : List Char} (h : (cs.all fun c => decide (IsAscii c)) = true) :
    ∀ c ∈ cs, IsAscii c := by
  intro c hc
  exact of_decide_eq_true (List.all_eq_true.mp h c hc)

/-- A hexadecimal digit has its value. -/
theorem hexValue?_digitChar {d : Nat} (h : d < 16) : hexValue? d.digitChar = some d := by
  have hall : ∀ d : Fin 16, hexValue? (Nat.digitChar d) = some d.val := by decide
  exact hall ⟨d, h⟩

/-- A hexadecimal digit is ASCII. -/
theorem isAscii_digitChar {d : Nat} (h : d < 16) : IsAscii d.digitChar := by
  have hall : ∀ d : Fin 16, (Nat.digitChar d).toNat < 128 := by decide
  exact hall ⟨d, h⟩

/-- A number in hexadecimal digits, with zeros in front of it to a width. -/
def padded (width n : Nat) : List Char :=
  List.replicate (width - (Nat.toDigits 16 n).length) '0' ++ Nat.toDigits 16 n

/-- The last digit of a padded number comes off the end. -/
theorem padded_succ {width : Nat} (hwidth : 0 < width) (n : Nat) :
    padded (width + 1) n = padded width (n / 16) ++ [(n % 16).digitChar] := by
  unfold padded
  rcases Nat.lt_or_ge n 16 with hlt | hge
  · have hzeros : List.replicate width '0' = List.replicate (width - 1) '0' ++ ['0'] := by
      rw [← List.replicate_succ', Nat.sub_add_cancel hwidth]
    rw [Nat.div_eq_of_lt hlt, Nat.mod_eq_of_lt hlt, Nat.toDigits_of_lt_base hlt, Nat.toDigits_zero]
    exact congrArg (· ++ [n.digitChar]) hzeros
  · rw [Nat.toDigits_of_base_le (by decide) hge, List.length_append, List.length_singleton,
      Nat.add_sub_add_right, List.append_assoc]

/-- A unit is written with four digits and read back from them. -/
theorem exists_unitChars (unit : Nat) (h : unit < 0x10000) :
    ∃ a b c d, unitChars unit = ['\\', 'u', a, b, c, d] ∧ unit? a b c d = some unit ∧
      IsAscii a ∧ IsAscii b ∧ IsAscii c ∧ IsAscii d := by
  have hfirst : unit / 16 / 16 / 16 < 16 := by omega
  have hsecond : unit / 16 / 16 % 16 < 16 := Nat.mod_lt _ (by decide)
  have hthird : unit / 16 % 16 < 16 := Nat.mod_lt _ (by decide)
  have hfourth : unit % 16 < 16 := Nat.mod_lt _ (by decide)
  have hpadded : padded 4 unit =
      [(unit / 16 / 16 / 16).digitChar, (unit / 16 / 16 % 16).digitChar, (unit / 16 % 16).digitChar,
        (unit % 16).digitChar] := by
    rw [padded_succ (by decide), padded_succ (by decide), padded_succ (by decide)]
    unfold padded
    rw [Nat.toDigits_of_lt_base hfirst]
    rfl
  refine ⟨_, _, _, _, congrArg (fun row => '\\' :: 'u' :: row) hpadded, ?_,
    isAscii_digitChar hfirst, isAscii_digitChar hsecond, isAscii_digitChar hthird,
    isAscii_digitChar hfourth⟩
  unfold unit?
  rw [hexValue?_digitChar hfirst, hexValue?_digitChar hsecond, hexValue?_digitChar hthird,
    hexValue?_digitChar hfourth]
  change some _ = some _
  congr 1
  omega

/-- A unit outside the surrogates is read as the character it numbers. -/
theorem char?_unit {a b c d : Char} {unit : Nat} (hunit : unit? a b c d = some unit)
    (hplain : unit < 0xD800 ∨ 0xE000 ≤ unit) (rest : List Char) :
    char? ('\\' :: 'u' :: a :: b :: c :: d :: rest) = some (Char.ofNat unit, rest) := by
  have hhigh : ¬ (0xD800 ≤ unit ∧ unit < 0xDC00) := by omega
  have hsurrogate : ¬ (0xD800 ≤ unit ∧ unit < 0xE000) := by omega
  simp [char?, hunit, hhigh, charOfUnits?, hsurrogate]

/-- Two surrogates are read as the character they stand for. -/
theorem char?_pair {a b c d a' b' c' d' : Char} {high low : Nat} (hhigh : unit? a b c d = some high)
    (hlow : unit? a' b' c' d' = some low) (hfirst : 0xD800 ≤ high ∧ high < 0xDC00)
    (hsecond : 0xDC00 ≤ low ∧ low < 0xE000) (rest : List Char) :
    char? ('\\' :: 'u' :: a :: b :: c :: d :: '\\' :: 'u' :: a' :: b' :: c' :: d' :: rest) =
      some (Char.ofNat (0x10000 + (high - 0xD800) * 0x400 + (low - 0xDC00)), rest) := by
  simp [char?, hhigh, hlow, hfirst, hsecond, charOfUnits?]

/-- The numbers of characters leave out the surrogates. -/
theorem toNat_bounds (c : Char) : c.toNat < 0xD800 ∨ 0xE000 ≤ c.toNat ∧ c.toNat < 0x110000 := by
  have hvalid := c.valid
  unfold UInt32.isValidChar Nat.isValidChar at hvalid
  change c.val.toNat < 0xD800 ∨ _
  rcases hvalid with hlow | ⟨hhigh, hlast⟩
  · exact .inl hlow
  · exact .inr ⟨hhigh, hlast⟩

/-- The units of a character are read back as the character, and they are written in ASCII. -/
theorem char?_units (c : Char) (rest : List Char) :
    char? ((units c).flatMap unitChars ++ rest) = some (c, rest) ∧
      ∀ d ∈ (units c).flatMap unitChars, IsAscii d := by
  have hbounds := toNat_bounds c
  have hescape : IsAscii '\\' ∧ IsAscii 'u' := by
    unfold IsAscii
    decide
  unfold units
  dsimp only
  split
  · next hlt =>
    obtain ⟨a, b, c', d, hchars, hunit, hascii⟩ := exists_unitChars _ hlt
    rw [List.flatMap_singleton, hchars]
    constructor
    · have hread := char?_unit hunit (by omega) rest
      rwa [Char.ofNat_toNat] at hread
    · simpa [hescape] using hascii
  · next hge =>
    obtain ⟨a, b, c', d, hchars, hunit, hascii⟩ :=
      exists_unitChars (0xD800 + (c.toNat - 0x10000) / 0x400) (by omega)
    obtain ⟨a', b', c'', d', hchars', hunit', hascii'⟩ :=
      exists_unitChars (0xDC00 + (c.toNat - 0x10000) % 0x400) (by omega)
    rw [List.flatMap_cons, List.flatMap_singleton, hchars, hchars']
    constructor
    · have hread := char?_pair hunit hunit' (by omega) (by omega) rest
      have hnumber : 0x10000 + (0xD800 + (c.toNat - 0x10000) / 0x400 - 0xD800) * 0x400 +
          (0xDC00 + (c.toNat - 0x10000) % 0x400 - 0xDC00) = c.toNat := by omega
      rw [hnumber, Char.ofNat_toNat] at hread
      exact hread
    · simpa [hescape, and_assoc] using And.intro hascii hascii'

/-- A printable character is read as itself. -/
theorem char?_printable {c : Char} (hslash : c ≠ '\\') (hprintable : ¬ c < ' ') (rest : List Char) :
    char? (c :: rest) = some (c, rest) := by
  unfold char?
  split
  · next heq => exact absurd (List.cons.inj heq).1 hslash
  · next heq => exact absurd (List.cons.inj heq).1 hslash
  · next heq =>
    obtain ⟨rfl, rfl⟩ := List.cons.inj heq
    exact if_neg hprintable
  · next heq => cases heq

/-- What is written for a character is read as the character, and it is ASCII. -/
theorem char?_charChars (c : Char) (rest : List Char) :
    char? (charChars c ++ rest) = some (c, rest) ∧ ∀ d ∈ charChars c, IsAscii d := by
  unfold charChars
  -- The characters with an escape of their own come first, each with its letter.
  iterate 7
    split
    · next h =>
      subst h
      exact ⟨rfl, isAscii_of_all rfl⟩
  split
  · next hslash _ _ _ _ _ hprintable =>
    refine ⟨char?_printable hslash (Char.not_lt.mpr hprintable.1) rest, ?_⟩
    rw [List.forall_mem_singleton]
    exact Nat.lt_of_le_of_lt hprintable.2 (by decide)
  · exact char?_units c rest

/-- What is written for a character is not empty, and it does not begin with a quote. -/
theorem exists_charChars_eq (c : Char) : ∃ d ds, charChars c = d :: ds ∧ d ≠ '"' := by
  have hread := (char?_charChars c []).1
  rw [List.append_nil] at hread
  cases hchars : charChars c with
  | nil =>
    rw [hchars] at hread
    cases hread
  | cons d ds =>
    refine ⟨d, ds, rfl, ?_⟩
    rintro rfl
    rw [hchars] at hread
    obtain ⟨rfl, rfl⟩ := Prod.mk.inj (Option.some_inj.mp hread)
    exact absurd hchars (by decide)

/-- The characters of a text are read up to its closing quote. -/
theorem textTail?_chars (content rest : List Char) {fuel : Nat} (hfuel : content.length < fuel) :
    textTail? fuel (content.flatMap charChars ++ '"' :: rest) = some (content, rest) := by
  obtain ⟨fuel, rfl⟩ := Nat.exists_eq_succ_of_ne_zero (Nat.ne_zero_of_lt hfuel)
  induction content generalizing fuel with
  | nil => rfl
  | cons c content ih =>
    obtain ⟨d, ds, hchars, hquote⟩ := exists_charChars_eq c
    have hread := (char?_charChars c (content.flatMap charChars ++ '"' :: rest)).1
    obtain ⟨fuel, rfl⟩ := Nat.exists_eq_succ_of_ne_zero
      (Nat.ne_zero_of_lt (Nat.lt_of_succ_lt_succ hfuel))
    rw [List.flatMap_cons, List.append_assoc]
    unfold textTail?
    split
    · next heq => cases heq
    · next heq =>
      rw [hchars] at heq
      exact absurd (List.cons.inj heq).1 hquote
    · next heq hother =>
      obtain rfl := Nat.succ.inj heq
      rw [hread]
      change (textTail? _ _).bind _ = _
      rw [ih _ (Nat.lt_of_succ_lt_succ hfuel)]
      rfl

/-- A quoted text is read after its opening quote. -/
theorem text?_chars (s : String) (rest : List Char) :
    text? (s.toList.flatMap charChars ++ '"' :: rest) = some (s, rest) := by
  have hlength (content : List Char) : content.length ≤ (content.flatMap charChars).length := by
    induction content with
    | nil => exact Nat.le_refl _
    | cons c content ih =>
      obtain ⟨d, ds, hchars, -⟩ := exists_charChars_eq c
      rw [List.flatMap_cons, List.length_append, hchars, List.length_cons, List.length_cons]
      omega
  unfold text?
  rw [textTail?_chars]
  · change some (String.ofList s.toList, rest) = _
    rw [String.ofList_toList]
  · have := hlength s.toList
    rw [List.length_append]
    omega

/-- A quoted text is ASCII. -/
theorem isAscii_textChars (s : String) : ∀ d ∈ textChars s, IsAscii d := by
  unfold textChars
  rw [List.forall_mem_cons, List.forall_mem_append, List.forall_mem_singleton]
  refine ⟨by decide, fun d hd => ?_, by decide⟩
  obtain ⟨c, -, hc⟩ := List.mem_flatMap.mp hd
  exact (char?_charChars c []).2 d hc

end Leapfrog.Json
