import Leapfrog.Proofs.NumberText
import Leapfrog.Proofs.ReportViews

/-!
# The lines of a report

A verdict and a summary list the failures of a report, each of them in a line of its own. A text is
taken apart at its line feeds, and it has the lines it was made of only if none of them holds a line
feed. What is written for a number never does: it is made of digits, signs, points and letters,
whatever the number is. So a line of a report is broken only by a name that is broken itself.
-/

namespace Leapfrog

namespace Decimal

open Json (IsWordPart isDigit_zeros isRow_digitChars isDigit_trimZeros isWordPart_of_isDigit
  isWordPart_signChars isWordPart_exponentChars)

/-- The digits of a number are digits. -/
theorem Digits.isDigit_chars (d : Digits) : ∀ c ∈ d.chars, c.isDigit = true :=
  List.forall_mem_append.mpr ⟨isDigit_zeros _, (isRow_digitChars _).isDigit⟩

/-- There are only digits before and after the point of a number. -/
theorem Digits.isDigit_split (d : Digits) :
    (∀ c ∈ d.split.1, c.isDigit = true) ∧ ∀ c ∈ d.split.2, c.isDigit = true := by
  have hchars := d.isDigit_chars
  unfold Digits.split
  split
  · exact ⟨isDigit_zeros 1, List.forall_mem_append.mpr ⟨isDigit_zeros _, hchars⟩⟩
  · have htake : ∀ c ∈ d.chars.take (d.exponent.toNat + 1), c.isDigit = true := fun c hc =>
      hchars c (List.mem_of_mem_take hc)
    exact ⟨List.forall_mem_append.mpr ⟨htake, isDigit_zeros _⟩,
      fun c hc => hchars c (List.mem_of_mem_drop hc)⟩

/-- Digits joined by a point are a part of a word. -/
theorem isWordPart_joinPoint {whole decimals : List Char} (hwhole : ∀ c ∈ whole, c.isDigit = true)
    (hdecimals : ∀ c ∈ decimals, c.isDigit = true) : IsWordPart (joinPoint whole decimals) := by
  unfold joinPoint
  split
  · exact isWordPart_of_isDigit hwhole
  · exact (isWordPart_of_isDigit hwhole).append (.cons rfl (isWordPart_of_isDigit hdecimals))

/-- Digits in exponential notation are a part of a word. -/
theorem isWordPart_exponentialChars {adjust : List Char → List Char} (d : Digits)
    (hadjust : ∀ c ∈ adjust (d.chars.drop 1), c.isDigit = true) :
    IsWordPart (exponentialChars adjust d) :=
  .append
    (isWordPart_joinPoint (fun c hc => d.isDigit_chars c (List.mem_of_mem_take hc)) hadjust)
    (isWordPart_exponentChars _)

/-- Digits in any style are a part of a word. -/
theorem Style.isWordPart_write (style : Style) (d : Digits) : IsWordPart (style.write d) := by
  unfold Style.write
  split
  · obtain ⟨hwhole, hdecimals⟩ := d.isDigit_split
    refine isWordPart_joinPoint hwhole ?_
    split
    · exact isDigit_zeros 1
    · exact isDigit_trimZeros hdecimals
  · exact isWordPart_exponentialChars d
      (isDigit_trimZeros fun c hc => d.isDigit_chars c (List.mem_of_mem_drop hc))

/-- A magnitude with a fixed number of decimals is a part of a word. -/
theorem isWordPart_fixedMagnitude (decimals m : Nat) (e : Int) :
    IsWordPart (fixedMagnitude decimals m e) := by
  have hrow (n k : Nat) : ∀ c ∈ List.replicate k '0' ++ digitChars n, c.isDigit = true :=
    List.forall_mem_append.mpr ⟨isDigit_zeros _, (isRow_digitChars _).isDigit⟩
  exact isWordPart_joinPoint (fun c hc => hrow _ _ c (List.mem_of_mem_take hc))
    fun c hc => hrow _ _ c (List.mem_of_mem_drop hc)

/-- A magnitude with some significant digits is a part of a word. -/
theorem isWordPart_generalMagnitude (places m : Nat) (e : Int) :
    IsWordPart (generalMagnitude places m e) :=
  Style.isWordPart_write _ _

/-- A magnitude in exponential notation is a part of a word. -/
theorem isWordPart_exponentialMagnitude (decimals m : Nat) (e : Int) :
    IsWordPart (exponentialMagnitude decimals m e) :=
  isWordPart_exponentialChars _ fun c hc => Digits.isDigit_chars _ c (List.mem_of_mem_drop hc)

/-- Whatever double is written, it is a part of a word if the finite ones are. -/
theorem isWordPart_writeWith {magnitude : Nat → Int → List Char}
    (hmagnitude : ∀ m e, IsWordPart (magnitude m e)) (x : Float) :
    IsWordPart (writeWith .words magnitude x) := by
  unfold writeWith
  split
  · exact List.all_eq_true.mp rfl
  · exact (isWordPart_signChars _).append (List.all_eq_true.mp rfl)
  · exact (isWordPart_signChars _).append (hmagnitude _ _)

end Decimal

namespace Text

/-- A text without a line feed. -/
def IsLine (s : String) : Prop := '\n' ∉ s.toList

/-- The lines of a text: what stands before, between and behind its line feeds. -/
def lines (s : String) : List String := (s.toList.splitOn '\n').map String.ofList

/-- What stands behind the last occurrence of a line. -/
def behindLast (mark : String) (ls : List String) : List String :=
  (ls.reverse.takeWhile (· ≠ mark)).reverse

/-- Two texts are in one line exactly if each of them is. -/
@[simp] theorem isLine_append {s t : String} : IsLine (s ++ t) ↔ IsLine s ∧ IsLine t := by
  simp [IsLine]

/-- A text of word characters is in one line. -/
theorem isLine_ofList {cs : List Char} (h : Json.IsWordPart cs) : IsLine (String.ofList cs) := by
  rw [IsLine, String.toList_ofList]
  intro hmem
  have hword := h _ hmem
  revert hword
  decide

/-- Lines joined by a text in one line are in one line. -/
theorem isLine_intercalate {separator : String} (hseparator : IsLine separator) {ls : List String}
    (hls : ∀ l ∈ ls, IsLine l) : IsLine (separator.intercalate ls) := by
  induction ls with
  | nil => simp [IsLine]
  | cons l rest ih =>
    obtain ⟨hl, hrest⟩ := List.forall_mem_cons.mp hls
    cases rest with
    | nil => simpa using hl
    | cons _ _ =>
      rw [String.intercalate_cons_of_ne_nil (List.cons_ne_nil _ _), isLine_append, isLine_append]
      exact ⟨⟨hl, hseparator⟩, ih hrest⟩

/-- Blanks break no line. -/
@[simp] theorem isLine_padRight {width : Nat} {s : String} :
    IsLine (padRight width s) ↔ IsLine s := by
  simp [padRight, IsLine, List.mem_replicate]

/-- A rule is a line. -/
theorem isLine_rule {c : Char} (hc : c ≠ '\n') : IsLine (rule c) := by
  simp [rule, IsLine, hc.symm]

/-- A text with two different characters is no rule. -/
theorem ne_rule {s : String} {a b : Char} (ha : a ∈ s.toList) (hb : b ∈ s.toList) (hab : a ≠ b)
    (c : Char) : s ≠ rule c := by
  rintro rfl
  rw [rule, String.toList_ofList] at ha hb
  exact hab ((List.eq_of_mem_replicate ha).trans (List.eq_of_mem_replicate hb).symm)

/-- A text joined from lines has these lines. -/
theorem lines_intercalate {ls : List String} (hls : ∀ l ∈ ls, IsLine l) (hne : ls ≠ []) :
    lines ("\n".intercalate ls) = ls := by
  have hchars : ∀ cs ∈ ls.map String.toList, '\n' ∉ cs := List.forall_mem_map.mpr hls
  have hsplit : ("\n".intercalate ls).toList.splitOn '\n' = ls.map String.toList := by
    rw [String.toList_intercalate]
    exact List.splitOn_intercalate '\n' hchars (by simpa using hne)
  rw [lines, hsplit, List.map_map]
  simp [Function.comp_def]

/-- Lines that are each closed by a line feed are joined by line feeds, with nothing behind the last
one. -/
theorem unlines_eq_intercalate (ls : List String) : unlines ls = "\n".intercalate (ls ++ [""]) := by
  induction ls with
  | nil => rfl
  | cons l rest ih =>
    rw [List.cons_append, String.intercalate_cons_of_ne_nil (by simp), ← ih]
    simp [unlines, String.join_cons]

/-- A text of lines that are each closed by a line feed has these lines, and nothing behind them. -/
theorem lines_unlines {ls : List String} (hls : ∀ l ∈ ls, IsLine l) :
    lines (unlines ls) = ls ++ [""] := by
  rw [unlines_eq_intercalate]
  refine lines_intercalate (List.forall_mem_append.mpr ⟨hls, ?_⟩) (by simp)
  simp [IsLine]

/-- Behind the last mark stands what follows a mark without a further one. -/
theorem behindLast_append {mark : String} (before : List String) {after : List String}
    (hafter : mark ∉ after) : behindLast mark (before ++ mark :: after) = after := by
  have hnot : ∀ l ∈ after.reverse, (decide (l ≠ mark)) = true := by
    intro l hl
    rw [decide_eq_true_iff]
    rintro rfl
    exact hafter (List.mem_reverse.mp hl)
  rw [behindLast, List.reverse_append, List.reverse_cons, List.append_assoc,
    List.takeWhile_append_of_pos hnot]
  simp

end Text

open Decimal
open Text (IsLine)

section

variable (x : Float) (k : Nat) (n : Int)

/-- A whole number is written in one line. -/
@[simp] theorem Decimal.isLine_whole : IsLine (whole n) :=
  Text.isLine_ofList (Json.isWord_wholeChars n).isWordChar

/-- A double is written in one line with a fixed number of decimals. -/
@[simp] theorem Decimal.isLine_fixed : IsLine (fixed k x) :=
  Text.isLine_ofList (isWordPart_writeWith (isWordPart_fixedMagnitude k) x)

/-- A double is written in one line with some significant digits. -/
@[simp] theorem Decimal.isLine_general : IsLine (general k x) :=
  Text.isLine_ofList (isWordPart_writeWith (isWordPart_generalMagnitude k) x)

/-- A double is written in one line in exponential notation. -/
@[simp] theorem Decimal.isLine_exponential : IsLine (exponential k x) :=
  Text.isLine_ofList (isWordPart_writeWith (isWordPart_exponentialMagnitude k) x)

end

/-- A scenario is described in one line. -/
theorem Scenario.isLine_description (s : Scenario Float) {backend : String} (h : IsLine backend) :
    IsLine (s.description backend) := by
  have htriple (v : Vec3 Float) : IsLine (description.triple v) := by
    have hlist : ∀ l ∈ v.toList.map (Decimal.fixed 6), IsLine l :=
      List.forall_mem_map.mpr fun _ _ => isLine_fixed _ _
    have hjoined : IsLine (", ".intercalate (v.toList.map (Decimal.fixed 6))) :=
      Text.isLine_intercalate (by simp [IsLine]) hlist
    simp only [description.triple, Text.isLine_append, hjoined, and_true]
    simp [IsLine]
  unfold description
  simp only [Text.isLine_append, isLine_whole, isLine_fixed, htriple, h, and_true]
  simp [IsLine]

/-- A mismatch is described in one line. -/
theorem Mismatch.isLine_description (m : Mismatch Float) : IsLine m.description := by
  have hcomponent : IsLine m.quantity.component := by
    cases m.quantity <;> simp [Quantity.component, IsLine]
  simp only [description, Text.isLine_append, isLine_whole, isLine_general, isLine_exponential,
    hcomponent, and_true]
  simp [IsLine]

/-- A failure is described in one line. -/
theorem Failure.isLine_description {f : Failure Float} (h : IsLine f.backend) :
    IsLine f.description := by
  simp only [description, Text.isLine_append, f.scenario.isLine_description h,
    f.mismatch.isLine_description, and_true]
  simp [IsLine]

namespace Report

variable {r : Report Float}

/-- A report whose names are each in one line. -/
structure HasLineNames (r : Report Float) : Prop where
  name : IsLine r.name
  skipped : ∀ name ∈ r.skipped, IsLine name
  backends : ∀ result ∈ r.results, IsLine result.backend

/-- A row of the table is its four columns with blanks between them. -/
theorem tableRow_eq (name status scenarios failed : String) :
    tableRow name status scenarios failed =
      Text.padRight 24 name ++ " " ++ (Text.padRight 8 status ++ " " ++
        (Text.padRight 12 scenarios ++ " " ++ Text.padRight 8 failed)) := by
  simp [tableRow, String.intercalate_cons_of_ne_nil]

/-- A row of the table is in one line if its columns are. -/
theorem isLine_tableRow {name status scenarios failed : String} (hname : IsLine name)
    (hstatus : IsLine status) (hscenarios : IsLine scenarios) (hfailed : IsLine failed) :
    IsLine (tableRow name status scenarios failed) := by
  simp only [tableRow_eq, Text.isLine_append, Text.isLine_padRight, hname, hstatus, hscenarios,
    hfailed, and_true]
  simp [IsLine]

/-- The status of a row has an A in it, and no line feed. -/
theorem Row.mem_status (row : Row) : 'A' ∈ row.status.toList ∧ IsLine row.status := by
  unfold Row.status IsLine
  split <;> simp

/-- A row has letters and blanks. -/
theorem Row.mem_text (row : Row) : 'A' ∈ row.text.toList ∧ ' ' ∈ row.text.toList := by
  have hstatus := row.mem_status.1
  simp [Row.text, tableRow_eq, Text.padRight, hstatus]

/-- A row is not a failure: it ends with digits or blanks, and a failure with a parenthesis. -/
theorem Row.text_ne_description (row : Row) (f : Failure Float) : row.text ≠ f.description := by
  intro heq
  have hlast (s t : String) : t.toList <:+ (s ++ t).toList := by simp
  have hrow : (Text.padRight 8 (Decimal.whole row.failed)).toList <:+ row.text.toList := by
    rw [Row.text, tableRow_eq]
    exact (hlast _ _).trans ((hlast _ _).trans (hlast _ _))
  have hfailure : ")".toList <:+ row.text.toList := heq ▸ (hlast _ _).trans (hlast _ _)
  have hmem : ')' ∈ (Text.padRight 8 (Decimal.whole row.failed)).toList := by
    refine (List.suffix_of_suffix_length_le hfailure hrow ?_).mem (by simp)
    have hpos := List.length_pos_iff.mpr (Json.isWord_wholeChars row.failed).ne_nil
    simp only [Text.padRight, Decimal.whole, String.toList_append, String.toList_ofList,
      List.length_append]
    exact Nat.le_trans hpos (Nat.le_add_right _ _)
  have hchar : ')' ∈ Decimal.wholeChars row.failed := by
    simpa [Text.padRight, Decimal.whole] using hmem
  have hword := (Json.isWord_wholeChars _).isWordChar _ hchar
  revert hword
  decide

/-- The lines between the last two rules of a summary: a line for each failure, and the rows of the
table if there are none. -/
def lastSection (r : Report Float) : List String :=
  if r.failures = [] then r.rows.map Row.text else r.failures.map Failure.description

/-- The lines of a summary have one line for each skipped name, each backend and each failure. -/
structure ListsFailures (r : Report Float) (lines : List String) : Prop where
  lines_eq : lines = r.heading ++
    [Text.rule '-', tableRow "Backend" "Status" "Scenarios" "Failed", Text.rule '-'] ++
    r.rows.map Row.text ++
    (if r.failures = [] then [] else Text.rule '-' :: r.failures.map Failure.description) ++
    [Text.rule '=', "", ""]
  /-- Behind the last dashed rule is the last section and the closing rule. -/
  behindLast_eq : Text.behindLast (Text.rule '-') lines = r.lastSection ++ [Text.rule '=', "", ""]
  rule_notMem : ∀ c, Text.rule c ∉ r.lastSection
  /-- Without failures there is no line that could be taken for one. -/
  description_notMem : r.failures = [] → ∀ f : Failure Float, f.description ∉ r.lastSection

/-- The failures of a report whose names are lines are described in one line each. -/
theorem HasLineNames.failures (h : r.HasLineNames) :
    ∀ line ∈ r.failures.map Failure.description, IsLine line := by
  simp only [Report.failures, Result.failures, List.forall_mem_map, List.forall_mem_flatMap]
  exact fun result hresult m _ => Failure.isLine_description (h.backends result hresult)

/-- The rows of a report whose names are lines are in one line each. -/
theorem HasLineNames.rows (h : r.HasLineNames) : ∀ line ∈ r.rows.map Row.text, IsLine line := by
  refine List.forall_mem_map.mpr fun row hrow => ?_
  obtain ⟨name, hname, rfl⟩ := List.mem_map.mp hrow
  obtain ⟨result, hresult, rfl⟩ := mem_backends.mp hname
  exact isLine_tableRow (h.backends result hresult) (Row.mem_status _).2 (isLine_whole _)
    (isLine_whole _)

/-- The heading of a report whose names are lines is made of lines. -/
theorem HasLineNames.heading (h : r.HasLineNames) : ∀ line ∈ r.heading, IsLine line := by
  have hskipped : ∀ name ∈ r.skipped, IsLine ("Skipped: " ++ name ++ " (not available)") := by
    intro name hname
    simp only [Text.isLine_append, h.skipped name hname, and_true]
    simp [IsLine]
  have hname : IsLine ("Verification Report: " ++ r.name) :=
    Text.isLine_append.mpr ⟨by simp [IsLine], h.name⟩
  have htotal {s : String} (n : Int) (hs : IsLine s) : IsLine (s ++ Decimal.whole n) :=
    Text.isLine_append.mpr ⟨hs, isLine_whole n⟩
  have hrule : IsLine (Text.rule '=') := Text.isLine_rule (by decide)
  unfold Report.heading
  refine List.forall_mem_append.mpr ⟨?_, List.forall_mem_map.mpr hskipped⟩
  simp only [List.forall_mem_cons, hname, hrule, true_and]
  refine ⟨by simp [IsLine], htotal _ ?_, htotal _ ?_, htotal _ ?_, by simp⟩ <;> simp [IsLine]

/-- Every line of a summary is in one line if the names are. -/
theorem HasLineNames.summaryLines (h : r.HasLineNames) : ∀ line ∈ r.summaryLines, IsLine line := by
  have htable : IsLine (tableRow "Backend" "Status" "Scenarios" "Failed") := by
    apply isLine_tableRow <;> simp [IsLine]
  have hrule : IsLine (Text.rule '-') := Text.isLine_rule (by decide)
  have hclosing : IsLine (Text.rule '=') := Text.isLine_rule (by decide)
  have hempty : IsLine "" := by simp [IsLine]
  unfold Report.summaryLines
  simp only [List.forall_mem_append, List.forall_mem_cons, List.not_mem_nil, false_imp_iff,
    implies_true, hrule, htable, hclosing, hempty, and_true]
  refine ⟨⟨h.heading, h.rows⟩, ?_⟩
  split
  · exact List.forall_mem_nil _
  · exact List.forall_mem_cons.mpr ⟨hrule, h.failures⟩

/-- There is no rule in the last section. -/
theorem rule_notMem_lastSection (r : Report Float) (c : Char) : Text.rule c ∉ r.lastSection := by
  unfold lastSection
  split
  · intro hmem
    obtain ⟨row, -, heq⟩ := List.mem_map.mp hmem
    exact Text.ne_rule row.mem_text.1 row.mem_text.2 (by decide) c heq
  · intro hmem
    obtain ⟨f, -, heq⟩ := List.mem_map.mp hmem
    have hfirst : 'o' ∈ f.description.toList := by simp [Failure.description, Mismatch.description]
    have hother : 'f' ∈ f.description.toList := by simp [Failure.description, Mismatch.description]
    exact Text.ne_rule hfirst hother (by decide) c heq

/-- The text of a summary, taken apart, has its lines and nothing behind the last line feed. -/
theorem listsFailures (h : r.HasLineNames) :
    r.ListsFailures (Text.lines (Text.unlines r.summaryLines)) := by
  have hlines : Text.lines (Text.unlines r.summaryLines) = r.summaryLines ++ [""] :=
    Text.lines_unlines h.summaryLines
  have hnot : Text.rule '-' ∉ r.lastSection ++ [Text.rule '=', "", ""] := by
    have hclosing : Text.rule '-' ∉ [Text.rule '=', "", ""] := by simp [Text.rule]
    exact fun hmem =>
      (List.mem_append.mp hmem).elim (r.rule_notMem_lastSection '-') hclosing
  have hsections : ∃ before, Text.lines (Text.unlines r.summaryLines) =
      before ++ Text.rule '-' :: (r.lastSection ++ [Text.rule '=', "", ""]) := by
    let above := r.heading ++ [Text.rule '-', tableRow "Backend" "Status" "Scenarios" "Failed"]
    rw [hlines, Report.summaryLines, lastSection]
    split
    · exact ⟨above, by simp [above]⟩
    · exact ⟨above ++ Text.rule '-' :: r.rows.map Row.text, by simp [above]⟩
  constructor
  · rw [hlines, Report.summaryLines, List.append_assoc _ _ [""]]
    rfl
  · obtain ⟨before, hbefore⟩ := hsections
    rw [hbefore, Text.behindLast_append before hnot]
  · exact r.rule_notMem_lastSection
  · intro hfailures f hmem
    rw [lastSection, if_pos hfailures] at hmem
    obtain ⟨row, -, heq⟩ := List.mem_map.mp hmem
    exact row.text_ne_description f heq

/-- The message of a verdict, taken apart, has a line for each failure behind its first one. -/
theorem lines_message (h : r.HasLineNames) (hne : r.failures ≠ []) :
    Text.lines (Fault.parity (r.failures.map Failure.description)).message =
      (Decimal.whole r.failures.length ++ " component(s) differ from the analytical solution:") ::
        r.failures.map Failure.description := by
  have hfirst : IsLine (Decimal.whole r.failures.length ++
      " component(s) differ from the analytical solution:") :=
    Text.isLine_append.mpr ⟨isLine_whole _, by simp [IsLine]⟩
  have hbreak : " component(s) differ from the analytical solution:\n" =
      " component(s) differ from the analytical solution:" ++ "\n" := rfl
  have hdescribed : r.failures.map Failure.description ≠ [] := by simpa using hne
  rw [message_parity, hbreak, ← String.append_assoc, ← String.intercalate_cons_of_ne_nil hdescribed]
  exact Text.lines_intercalate (List.forall_mem_cons.mpr ⟨hfirst, h.failures⟩)
    (List.cons_ne_nil _ _)

end Report

/-- The verdict on a report is a fault exactly if there are failures. If the names are lines, its
message has one line for each failure behind the first one, and the summary has the same lines
between its last two rules. Where a number is too long, neither of them lists anything: the summary
stops before its first row if that number is the number of checks. -/
theorem one_line_per_failure {r : Report Float} (h : r.HasLineNames) :
    ((∃ fault, r.verdict = .error fault) ↔ 0 < r.failures.length) ∧
    ((∀ f ∈ r.failures, f.HasShortNumbers) → ∀ fault, r.verdict = .error fault →
      fault.kind = .parity ∧
      Text.lines fault.message = (Decimal.whole r.failures.length ++
        " component(s) differ from the analytical solution:") ::
          r.failures.map Failure.description) ∧
    (r.HasShortNumbers → ∃ text, r.summary = .ok text ∧ r.ListsFailures (Text.lines text)) ∧
    ((∃ f ∈ r.failures, ¬ f.HasShortNumbers) → r.verdict = .error .tooManyDigits) ∧
    (¬ r.HasShortNumbers → r.summary = .error .tooManyDigits) ∧
    (¬ Limits.IsShort r.checks → Text.written r.lines =
      (["", Text.rule '=', "Verification Report: " ++ r.name, Text.rule '=',
        "Scenarios: " ++ Decimal.whole r.results.length], some .tooManyDigits)) := by
  refine ⟨?_, fun hshort fault hfault => ?_, fun hshort =>
    ⟨_, Report.summary_of_short hshort, Report.listsFailures h⟩, Report.verdict_of_long,
    Report.summary_of_long, Report.written_of_long_checks⟩
  · rw [List.length_pos_iff]
    constructor
    · rintro ⟨fault, hfault⟩ hnil
      cases (Report.verdict_of_nil hnil).symm.trans hfault
    · intro hne
      by_cases hshort : ∀ f ∈ r.failures, f.HasShortNumbers
      · exact ⟨_, Report.verdict_of_short hne hshort⟩
      · push Not at hshort
        exact ⟨_, Report.verdict_of_long hshort⟩
  · by_cases hne : r.failures = []
    · cases (Report.verdict_of_nil hne).symm.trans hfault
    · obtain rfl := Except.error.inj ((Report.verdict_of_short hne hshort).symm.trans hfault)
      exact ⟨rfl, Report.lines_message h hne⟩

/-- The names of the interleaved report are lines. -/
theorem Report.hasLineNames_interleaved : interleaved.HasLineNames where
  name := by
    unfold IsLine
    decide +kernel
  skipped := fun _ hname => nomatch hname
  backends := by
    unfold IsLine
    decide +kernel

/-- The verdict on the interleaved report has two lines, and its summary has one behind the last
dashed rule and in front of the closing one. -/
theorem one_line_per_failure_interleaved :
    Report.interleaved.HasLineNames ∧ Report.interleaved.HasShortNumbers ∧
      (∃ fault, Report.interleaved.verdict = .error fault ∧
        (Text.lines fault.message).length = 1 + 1) ∧
      ∃ text, Report.interleaved.summary = .ok text ∧
        (Text.behindLast (Text.rule '-') (Text.lines text)).length = 1 + 3 := by
  have hnames := Report.hasLineNames_interleaved
  have hshort := Report.hasShortNumbers_interleaved
  have hcount : Report.interleaved.failures.length = 1 := by decide +kernel
  obtain ⟨hverdict, hlines, htext, -⟩ := one_line_per_failure hnames
  obtain ⟨text, hsummary, hlists⟩ := htext hshort
  obtain ⟨fault, hfault⟩ := hverdict.mpr (by rw [hcount]; decide)
  refine ⟨hnames, hshort, ⟨fault, hfault, ?_⟩, text, hsummary, ?_⟩
  · rw [(hlines hshort.failures fault hfault).2, List.length_cons, List.length_map, hcount]
  · have hne : Report.interleaved.failures ≠ [] := by decide +kernel
    rw [hlists.behindLast_eq, Report.lastSection, if_neg hne, List.length_append, List.length_map,
      hcount]
    rfl

/-- A report with one failure, whose checks add up to a number with one digit too many. -/
def Report.overlongMissed : Report Float :=
  .ofResults standardName [] [.counted (Nat.pow 10 Decimal.maxDigits - 1), .missed "host"]

/-- A report may have a failure and names that are lines, and yet no summary that shows them. -/
theorem failure_unlisted_of_overlong :
    Report.overlongMissed.HasLineNames ∧ Report.overlongMissed.failures.length = 1 ∧
      Report.overlongMissed.summary = .error .tooManyDigits := by
  have hreport : Report.overlongMissed =
      ⟨Report.standardName, [], [.counted (Nat.pow 10 Decimal.maxDigits - 1), .missed "host"]⟩ :=
    Report.ofResults_eq ..
  have hlong (n : Nat) : ¬ (0 + ((n : Int) - 1) + 6).natAbs < n := by omega
  have hhost : IsLine "host" := by simp [IsLine]
  rw [hreport]
  refine ⟨⟨?_, (fun _ hname => nomatch hname), ?_⟩, rfl, ?_⟩
  · simp [IsLine, Report.standardName]
  · exact List.forall_mem_cons.mpr ⟨hhost, List.forall_mem_singleton.mpr hhost⟩
  · have hchecks : ¬ Limits.IsShort (0 + ((Nat.pow 10 Decimal.maxDigits : Nat) - 1 : Int) + 6) := hlong _
    exact Report.summary_of_long fun hshort => hchecks hshort.checks

end Leapfrog
