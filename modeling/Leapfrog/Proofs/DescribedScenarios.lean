import Leapfrog.Proofs.FixedDecimals
import Leapfrog.Proofs.ReportLines

/-!
# Descriptions of scenarios

A description names a backend and gives nine numbers of a scenario, each as a word behind its mark. A
name may be any text, also one that looks like a description itself, so a description cannot be read
from its start. It is read from its end: no mark ends with a character of a word, so the last word is
known, and with it what stands before; when all words are taken off, the name is left.

The numbers of atoms and steps are known from their words. Of the other numbers a description shows the
nearest decimals with six places, and no more than these.

A number of atoms or steps that has too many digits to be written leaves a scenario without a
description. Nothing else does.
-/

namespace Leapfrog

namespace Text

open Json (IsWordPart isWordChar)

/-- A text that ends with a character that is in no word. -/
def IsMark (s : String) : Prop := ∃ c, s.toList.getLast? = some c ∧ isWordChar c = false

/-- The word at the end of a text. -/
def lastWord (s : String) : String :=
  String.ofList (s.toList.reverse.takeWhile isWordChar).reverse

/-- Behind a mark, the last word is what follows the mark. -/
theorem lastWord_append (front : String) {mark word : String} (hmark : IsMark mark)
    (hword : IsWordPart word.toList) : lastWord (front ++ mark ++ word) = word := by
  obtain ⟨c, hlast, hc⟩ := hmark
  obtain ⟨before, hbefore⟩ := List.getLast?_eq_some_iff.mp hlast
  have hreverse : ∀ d ∈ word.toList.reverse, isWordChar d = true := fun d hd =>
    hword d (List.mem_reverse.mp hd)
  rw [lastWord, String.toList_append, String.toList_append, hbefore, List.reverse_append,
    List.takeWhile_append_of_pos hreverse]
  simp [hc]

/-- A text is known from what stands before its last mark and the word behind it, and they are known
from the text. -/
theorem append_word_inj {front front' mark word word' : String} (hmark : IsMark mark)
    (hword : IsWordPart word.toList) (hword' : IsWordPart word'.toList) :
    front ++ mark ++ word = front' ++ mark ++ word' ↔ front = front' ∧ word = word' := by
  constructor
  · intro h
    have hlast : word = word' := by
      rw [← lastWord_append front hmark hword, h, lastWord_append front' hmark hword']
    rw [hlast, String.append_left_inj, String.append_left_inj] at h
    exact ⟨h, hlast⟩
  · rintro ⟨rfl, rfl⟩
    rfl

/-- A text continued by words, each of them behind its mark. -/
def continued (front : String) (fields : List (String × String)) : String :=
  fields.foldl (fun text field => text ++ field.1 ++ field.2) front

/-- The words behind given marks are known from the text, and so is what they continue. -/
theorem continued_inj {marks words words' : List String} (hmarks : ∀ m ∈ marks, IsMark m)
    (hwords : ∀ w ∈ words, IsWordPart w.toList) (hwords' : ∀ w ∈ words', IsWordPart w.toList)
    (hlength : words.length = marks.length) (hlength' : words'.length = marks.length)
    {front front' : String} :
    continued front (marks.zip words) = continued front' (marks.zip words') ↔
      front = front' ∧ words = words' := by
  induction marks generalizing words words' front front' with
  | nil =>
    obtain rfl := List.eq_nil_of_length_eq_zero hlength
    obtain rfl := List.eq_nil_of_length_eq_zero hlength'
    exact (and_iff_left rfl).symm
  | cons mark marks ih =>
    obtain ⟨word, words, rfl⟩ := List.exists_cons_of_length_eq_add_one hlength
    obtain ⟨word', words', rfl⟩ := List.exists_cons_of_length_eq_add_one hlength'
    obtain ⟨hmark, hmarks⟩ := List.forall_mem_cons.mp hmarks
    obtain ⟨hword, hwords⟩ := List.forall_mem_cons.mp hwords
    obtain ⟨hword', hwords'⟩ := List.forall_mem_cons.mp hwords'
    change continued (front ++ mark ++ word) (marks.zip words) =
      continued (front' ++ mark ++ word') (marks.zip words') ↔ _
    rw [ih hmarks hwords hwords' (Nat.succ_inj.mp hlength) (Nat.succ_inj.mp hlength'),
      append_word_inj hmark hword hword', List.cons.injEq, and_assoc]

end Text

/-- A whole number is known from its text. -/
theorem Decimal.whole_inj {n k : Int} : whole n = whole k ↔ n = k := by
  refine ⟨fun h => ?_, congrArg whole⟩
  have hread := Json.word?_wholeChars n
  rw [String.ofList_inj.mp h, Json.word?_wholeChars] at hread
  exact (Json.whole.inj (Option.some.inj hread)).symm

namespace Scenario

/-- The texts of the timestep and of the components of the velocity and the force. -/
def tokens (s : Scenario Float) : List String :=
  (s.timestep :: (s.velocity.toList ++ s.force.toList)).map (Decimal.fixed 6)

/-- What stands before each number of a description. -/
def marks : List String :=
  [" with ", " atoms for ", " timestep (dt = ", ", v0=(", ", ", ", ", "), f0=(", ", ", ", "]

/-- The numbers of a description as they are written. -/
def words (s : Scenario Float) : List String :=
  Decimal.whole s.atoms :: Decimal.whole s.steps :: s.tokens

/-- Three numbers between parentheses, one after the other. -/
theorem triple_eq (v : Vec3 Float) :
    description.triple v = "(" ++ Decimal.fixed 6 v.x ++ ", " ++ Decimal.fixed 6 v.y ++ ", " ++
      Decimal.fixed 6 v.z ++ ")" := by
  simp [description.triple, Vec3.toList, String.intercalate_cons_of_ne_nil, String.append_assoc]

/-- A description is a name continued by the numbers of a scenario, and two closing parentheses. -/
theorem description_eq (s : Scenario Float) (backend : String) :
    s.description backend = Text.continued ("Testing " ++ backend) (marks.zip s.words) ++ "))" := by
  have hvelocity (rest : String) : ", v0=" ++ ("(" ++ rest) = ", v0=(" ++ rest := by
    rw [← String.append_assoc]
    rfl
  have hforce (rest : String) : ")" ++ (", f0=" ++ ("(" ++ rest)) = "), f0=(" ++ rest := by
    rw [← String.append_assoc, ← String.append_assoc]
    rfl
  have hclosing : ")" ++ ")" = "))" := rfl
  unfold description
  rw [triple_eq, triple_eq]
  simp only [String.append_assoc, hvelocity, hforce, hclosing]
  simp only [Text.continued, marks, words, tokens, Vec3.toList, List.cons_append, List.nil_append,
    List.map_cons, List.map_nil, List.zip_cons_cons, List.zip_nil_left, List.foldl_cons,
    List.foldl_nil, String.append_assoc]

/-- Every mark of a description ends with a blank or a parenthesis. -/
theorem isMark_of_mem_marks : ∀ mark ∈ marks, Text.IsMark mark := by
  have hends : ∀ mark ∈ marks, mark.toList.getLast? = some ' ' ∨ mark.toList.getLast? = some '(' := by
    decide +kernel
  intro mark hmark
  rcases hends mark hmark with hblank | hopening
  · exact ⟨_, hblank, rfl⟩
  · exact ⟨_, hopening, rfl⟩

/-- The numbers of a description are words. -/
theorem isWordPart_words (s : Scenario Float) : ∀ word ∈ s.words, Json.IsWordPart word.toList := by
  have hwhole (n : Int) : Json.IsWordPart (Decimal.whole n).toList := by
    rw [Decimal.whole, String.toList_ofList]
    exact (Json.isWord_wholeChars n).isWordChar
  have hfixed (x : Float) : Json.IsWordPart (Decimal.fixed 6 x).toList := by
    rw [Decimal.fixed, String.toList_ofList]
    exact Decimal.isWordPart_writeWith (Decimal.isWordPart_fixedMagnitude 6) x
  exact List.forall_mem_cons.mpr ⟨hwhole _, List.forall_mem_cons.mpr
    ⟨hwhole _, List.forall_mem_map.mpr fun x _ => hfixed x⟩⟩

/-- There are as many numbers as marks. -/
theorem length_words (s : Scenario Float) : s.words.length = marks.length := by
  simp [words, tokens, marks, Vec3.toList]

/-- A description is known from its name and its numbers as they are written, and they are known from
the description. -/
theorem description_inj {s s' : Scenario Float} {backend backend' : String} :
    s.description backend = s'.description backend' ↔
      backend = backend' ∧ s.atoms = s'.atoms ∧ s.steps = s'.steps ∧ s.tokens = s'.tokens := by
  rw [description_eq, description_eq, String.append_left_inj,
    Text.continued_inj isMark_of_mem_marks s.isWordPart_words s'.isWordPart_words s.length_words
      s'.length_words, String.append_right_inj]
  simp only [words, List.cons.injEq, Decimal.whole_inj, Int.natCast_inj]

end Scenario

open Decimal (Binary64 fixed fixedText shownValue?)

/-- Descriptions are unambiguous. Every scenario whose numbers of atoms and steps have few enough
digits to be written has one, and only these have. Two descriptions are equal exactly if the names, the
numbers of atoms and steps, and the texts of the other numbers are equal. Such a text has all whole
digits of a finite double and the six decimals that are nearest to its exact value, the even ones on a
tie, after a minus if the double has one. What it shows is within half of the last decimal of the value
and never decreases while the value grows. A double that is not finite is written as a word. -/
theorem descriptions_are_unambiguous :
    (∀ (s : Scenario Float) (backend : String),
      ((∃ text, s.describe backend = .ok text) ↔
        s.atoms < Nat.pow 10 Decimal.maxDigits ∧ s.steps < Nat.pow 10 Decimal.maxDigits) ∧
      ∀ fault, s.describe backend = .error fault → fault = .tooManyDigits) ∧
    (∀ (s s' : Scenario Float) (backend backend' text text' : String),
      s.describe backend = .ok text → s'.describe backend' = .ok text' →
        (text = text' ↔
          backend = backend' ∧ s.atoms = s'.atoms ∧ s.steps = s'.steps ∧ s.tokens = s'.tokens)) ∧
    (∀ (x : Float) (negative : Bool) (m : ℕ) (e : ℤ),
      Binary64.ofFloat x = .finite negative m e →
        ∃ units : ℕ, fixed 6 x = fixedText 6 negative units ∧
          (Text.padZeros 6 (units % 10 ^ 6)).length = 6 ∧ IsNearestEven (m * 2 ^ e * 10 ^ 6) units) ∧
    (∀ (x : Float) (v : ℚ), (Binary64.ofFloat x).value? = some v →
      ∃ n : ℤ, shownValue? (fixed 6 x) = some ((n : ℚ) / 10 ^ 6) ∧ IsNearestEven (v * 10 ^ 6) n ∧
        |(n : ℚ) / 10 ^ 6 - v| ≤ 0.0000005) ∧
    (∀ (x y : Float) (v w p q : ℚ), (Binary64.ofFloat x).value? = some v →
      (Binary64.ofFloat y).value? = some w → v ≤ w →
        shownValue? (fixed 6 x) = some p → shownValue? (fixed 6 y) = some q → p ≤ q) ∧
    (∀ x : Float, x.isFinite = false → fixed 6 x =
      if Scalar.isNaN x then "nan" else if Scalar.lt x (Scalar.ofInt 0) then "-inf" else "inf") := by
  have hsix : 0 < 6 := by decide
  refine ⟨fun _ _ => ⟨Scenario.exists_describe_iff.trans Scenario.hasShortCounts_iff,
    fun _ => Scenario.fault_of_describe⟩, fun s s' backend backend' text text' htext htext' => ?_,
    fun x negative m e hx => ?_, fun x v hv => ?_,
    fun _ _ _ _ _ _ => Decimal.shownValue?_fixed_mono hsix, fun _ => Decimal.fixed_of_not_isFinite 6⟩
  · rw [Scenario.eq_of_describe htext, Scenario.eq_of_describe htext']
    exact Scenario.description_inj
  · obtain ⟨units, htext, hnearest⟩ := Decimal.fixed_of_finite hsix hx
    exact ⟨units, htext, Decimal.length_padZeros hsix units, hnearest⟩
  · obtain ⟨n, hshown, hnearest⟩ := Decimal.exists_shownValue?_fixed hsix hv
    have hhalf : (1 / 2 / 10 ^ 6 : ℚ) = 0.0000005 := by norm_num
    exact ⟨n, hshown, hnearest, hhalf ▸ hnearest.abs_div_sub_le (by norm_num)⟩

/-- A scenario with numbers that lie halfway between two decimals, a zero with a sign, and numbers that
are not finite. -/
def Scenario.halfway : Scenario Float where
  atoms := 1
  timestep := 0.0078125
  velocity := ⟨0.0234375, -0.0, 0.0 / 0.0⟩
  force := ⟨1.0 / 0.0, -1.0 / 0.0, 1e22⟩
  steps := 2
  atoms_pos := Nat.one_pos
  timestep_positive := by decide +kernel

/-- The same scenario with a timestep that is one of the two decimals. -/
def Scenario.settled : Scenario Float :=
  { halfway with timestep := 0.007812, timestep_positive := by decide +kernel }

/-- The exact values of the doubles that lie halfway between two decimals. -/
theorem Decimal.value?_halfway :
    (Binary64.ofFloat 0.0078125).value? = some (1 / 128) ∧
      (Binary64.ofFloat 0.0234375).value? = some (3 / 128) := by
  have hlow : Binary64.ofFloat 0.0078125 = .finite false 4503599627370496 (-59) := by decide +kernel
  have hhigh : Binary64.ofFloat 0.0234375 = .finite false 6755399441055744 (-58) := by decide +kernel
  rw [hlow, hhigh]
  norm_num [Binary64.value?]

/-- Of two timesteps one is halfway to the next decimal, and the even decimal is written for both. The
same scenario is described in another way on a backend whose name is a description. -/
theorem descriptions_are_unambiguous_halfway :
    Scenario.halfway.tokens =
        ["0.007812", "0.023438", "-0.000000", "nan", "inf", "-inf", "10000000000000000000000.000000"] ∧
      (∃ text other, Scenario.halfway.describe "host" = .ok text ∧
        Scenario.settled.describe "host" = .ok text ∧
        Scenario.halfway.describe text = .ok other ∧ other ≠ text) ∧
      (Binary64.ofFloat 0.0078125 = .finite false 4503599627370496 (-59) ∧
        ∃ units : ℕ, fixed 6 0.0078125 = fixedText 6 false units ∧
          (Text.padZeros 6 (units % 10 ^ 6)).length = 6 ∧
          IsNearestEven ((4503599627370496 : ℕ) * 2 ^ (-59 : ℤ) * 10 ^ 6) units) ∧
      ((Binary64.ofFloat 0.0234375).value? = some (3 / 128) ∧
        ∃ n : ℤ, shownValue? (fixed 6 0.0234375) = some ((n : ℚ) / 10 ^ 6) ∧
          IsNearestEven (3 / 128 * 10 ^ 6) n ∧ |(n : ℚ) / 10 ^ 6 - 3 / 128| ≤ 0.0000005) ∧
      (shownValue? (fixed 6 0.0078125) = some 0.007812 ∧
        shownValue? (fixed 6 0.0234375) = some 0.023438 ∧ (0.007812 : ℚ) ≤ 0.023438) ∧
      (-1.0 / 0.0 : Float).isFinite = false ∧ fixed 6 (-1.0 / 0.0) =
        if Scalar.isNaN (-1.0 / 0.0 : Float) then "nan"
        else if Scalar.lt (-1.0 / 0.0 : Float) (Scalar.ofInt 0) then "-inf" else "inf" := by
  obtain ⟨hexists, hnames, hunits, hvalues, hgrows, hwords⟩ := descriptions_are_unambiguous
  obtain ⟨hlow, hhigh⟩ := Decimal.value?_halfway
  have htokens : Scenario.halfway.tokens = ["0.007812", "0.023438", "-0.000000", "nan", "inf", "-inf",
      "10000000000000000000000.000000"] := by decide +kernel
  have hsettled : Scenario.settled.tokens = Scenario.halfway.tokens := by decide +kernel
  have hparts : Binary64.ofFloat 0.0078125 = .finite false 4503599627370496 (-59) := by decide +kernel
  have hfirst : shownValue? (fixed 6 0.0078125) = some 0.007812 := by decide +kernel
  have hsecond : shownValue? (fixed 6 0.0234375) = some 0.023438 := by decide +kernel
  have hinfinite : (-1.0 / 0.0 : Float).isFinite = false := by decide +kernel
  have hshort : 1 < Nat.pow 10 Decimal.maxDigits ∧ 2 < Nat.pow 10 Decimal.maxDigits :=
    ⟨by decide +kernel, by decide +kernel⟩
  have hdescribed (s : Scenario Float) (hs : s.atoms = 1 ∧ s.steps = 2) (backend : String) :
      ∃ text, s.describe backend = .ok text :=
    (hexists s backend).1.mpr (by rwa [hs.1, hs.2])
  obtain ⟨text, htext⟩ := hdescribed .halfway ⟨rfl, rfl⟩ "host"
  obtain ⟨settled, hsettledText⟩ := hdescribed .settled ⟨rfl, rfl⟩ "host"
  obtain ⟨other, hother⟩ := hdescribed .halfway ⟨rfl, rfl⟩ text
  have hsame : settled = text :=
    (hnames _ _ _ _ _ _ hsettledText htext).mpr ⟨rfl, rfl, rfl, hsettled⟩
  refine ⟨htokens, ⟨text, other, htext, hsame ▸ hsettledText, hother, fun heq => ?_⟩,
    ⟨hparts, hunits _ _ _ _ hparts⟩, ⟨hhigh, hvalues _ _ hhigh⟩, ⟨hfirst, hsecond, ?_⟩, hinfinite,
    hwords _ hinfinite⟩
  · obtain ⟨hname, -⟩ := (hnames _ _ _ _ _ _ hother htext).mp heq
    obtain rfl := Scenario.eq_of_describe htext
    revert hname
    decide +kernel
  · exact hgrows _ _ _ _ _ _ hlow hhigh (by norm_num) hfirst hsecond

end Leapfrog
