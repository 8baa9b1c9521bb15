import Leapfrog.Proofs.DocumentText
import Leapfrog.Proofs.ReportViews

/-!
# Saved reports

A saved report loses nothing. Its text is ASCII in every layout and is read back as the document of the
report, with the same members in the same order, and an entry of the document tells everything about
its failure. No name occurs twice in a record, so that a reader that looks members up by their names
finds all of them.
-/

namespace Leapfrog

/-- An axis is known by its letter. -/
theorem Axis.name_injective : Function.Injective Axis.name := by
  intro axis other h
  cases axis <;> cases other <;> first | rfl | exact absurd h (by decide)

/-- A quantity is known by its word. -/
theorem Quantity.word_injective : Function.Injective Quantity.word := by
  intro q other h
  cases q <;> cases other <;> first | rfl | exact absurd h (by decide)

/-- A mismatch whose dimension is counted from the first one. -/
def Mismatch.HasPlainAxis (m : Mismatch Float) : Prop := 0 ≤ m.dimension ∧ m.dimension ≤ 2

/-- A plain dimension is one of the three. -/
theorem Mismatch.HasPlainAxis.hasAxis {m : Mismatch Float} (h : m.HasPlainAxis) : m.HasAxis :=
  ⟨h.1.trans' (by decide), h.2⟩

/-- Plain dimensions are known by their letters. -/
theorem Mismatch.dimension_eq_of_name {m n : Mismatch Float} (hm : m.HasPlainAxis)
    (hn : n.HasPlainAxis) {name : String} (hmName : m.dimensionName = .ok name)
    (hnName : n.dimensionName = .ok name) : m.dimension = n.dimension := by
  obtain ⟨axis, hmAxis, rfl⟩ := dimensionName_eq_ok_iff.mp hmName
  obtain ⟨other, hnAxis, hname⟩ := dimensionName_eq_ok_iff.mp hnName
  obtain rfl := Axis.name_injective hname
  have hlt := other.index_lt
  unfold HasPlainAxis at hm hn
  omega

/-- A scenario is known by its nine parameters. -/
theorem Scenario.members_injective : Function.Injective Scenario.members := by
  intro s t h
  obtain ⟨n, timestep, ⟨vx, vy, vz⟩, ⟨fx, fy, fz⟩, k, _, _⟩ := s
  obtain ⟨n', timestep', ⟨vx', vy', vz'⟩, ⟨fx', fy', fz'⟩, k', _, _⟩ := t
  simp only [members, List.cons.injEq, Prod.mk.injEq, true_and, Json.whole.injEq, Json.real.injEq,
    Nat.cast_inj, and_true] at h
  obtain ⟨rfl, rfl, rfl, rfl, rfl, rfl, rfl, rfl, rfl⟩ := h
  rfl

namespace Failure

/-- What the entry for a failure tells of its mismatch. -/
theorem members_eq_ok_iff {f : Failure Float} {entry : List (String × Json)} :
    f.members = .ok entry ↔ ∃ name, f.mismatch.dimensionName = .ok name ∧
      entry = (("backend", .text f.backend) :: f.scenario.members) ++
        [("atom", .whole f.mismatch.atom), ("dimension", .text name),
          ("kind", .text f.mismatch.quantity.word), ("actual", .real f.mismatch.actual),
          ("expected", .real f.mismatch.expected), ("tolerance", .real f.mismatch.tolerance)] := by
  unfold members
  rw [bind_eq_ok_iff]
  exact exists_congr fun _ => and_congr_right fun _ =>
    ⟨fun h => (Except.ok.inj h).symm, fun h => h ▸ rfl⟩

/-- Failures with plain dimensions are known by their entries. -/
theorem eq_of_members {f g : Failure Float} {entry : List (String × Json)}
    (hf : f.mismatch.HasPlainAxis) (hg : g.mismatch.HasPlainAxis) (hfEntry : f.members = .ok entry)
    (hgEntry : g.members = .ok entry) : f = g := by
  obtain ⟨name, hname, rfl⟩ := members_eq_ok_iff.mp hfEntry
  obtain ⟨other, hother, heq⟩ := members_eq_ok_iff.mp hgEntry
  obtain ⟨hhead, htail⟩ := List.append_inj heq rfl
  obtain ⟨hbackend, hscenario⟩ := List.cons.inj hhead
  simp only [List.cons.injEq, Prod.mk.injEq, true_and, Json.whole.injEq, Json.real.injEq,
    Json.text.injEq, and_true] at htail hbackend
  obtain ⟨hatom, rfl, hquantity, hactual, hexpected, htolerance⟩ := htail
  have hdimension := Mismatch.dimension_eq_of_name hf hg hname hother
  obtain ⟨_, _, _, _, _, _, _, _⟩ := f
  obtain ⟨_, _, _, _, _, _, _, _⟩ := g
  obtain rfl := hbackend
  obtain rfl := Scenario.members_injective hscenario
  obtain rfl := Quantity.word_injective hquantity
  obtain rfl := hatom
  obtain rfl := hdimension
  obtain rfl := hactual
  obtain rfl := hexpected
  obtain rfl := htolerance
  rfl

/-- No name occurs twice in an entry. -/
theorem nodup_members {f : Failure Float} {entry : List (String × Json)}
    (h : f.members = .ok entry) : (entry.map Prod.fst).Nodup := by
  obtain ⟨name, -, rfl⟩ := members_eq_ok_iff.mp h
  simp only [Scenario.members, List.cons_append, List.nil_append, List.map_cons, List.map_nil]
  decide

end Failure

namespace Report

variable {r : Report Float} {started : Timestamp}

/-- The numbers in the text of a report are short if the whole numbers of the report are. -/
theorem HasShortNumbers.numbers (h : r.HasShortNumbers) :
    ∀ n ∈ r.checks :: r.failures.flatMap Failure.numbers, Limits.IsShort n := by
  simp only [Failure.numbers, List.forall_mem_cons, List.forall_mem_flatMap, List.not_mem_nil,
    false_imp_iff, implies_true, and_true]
  exact ⟨h.checks, fun f hf =>
    ⟨(h.failures f hf).atoms, (h.failures f hf).steps, (h.failures f hf).atom⟩⟩

/-- A plain dimension is short, so a report with plain dimensions whose text has short numbers has no
others. -/
theorem hasShortNumbers_of_numbers (hplain : ∀ f ∈ r.failures, f.mismatch.HasPlainAxis)
    (h : ∀ n ∈ r.checks :: r.failures.flatMap Failure.numbers, Limits.IsShort n) :
    r.HasShortNumbers := by
  have hthree : 3 < Nat.pow 10 Decimal.maxDigits := by decide +kernel
  simp only [Failure.numbers, List.forall_mem_cons, List.forall_mem_flatMap, List.not_mem_nil,
    false_imp_iff, implies_true, and_true] at h
  refine ⟨h.1, fun f hf => ?_⟩
  obtain ⟨hatoms, hsteps, hatom⟩ := h.2 f hf
  obtain ⟨hleast, hgreatest⟩ := hplain f hf
  refine ⟨hatoms, hsteps, hatom, ?_⟩
  unfold Limits.IsShort
  omega

/-- The document of a report with short numbers is printed. -/
theorem text_of_short {layout : Json.Layout} {document : Json}
    (hdocument : r.document started = .ok document) (hshort : r.HasShortNumbers) :
    r.text started layout = .ok (Json.print layout document) := by
  rw [Report.text, hdocument, Limits.checkAllDigits_eq, if_pos hshort.numbers]
  rfl

/-- A document with a number that is too long is not printed. -/
theorem text_of_long {layout : Json.Layout} {document : Json}
    (hdocument : r.document started = .ok document)
    (hlong : ¬ ∀ n ∈ r.checks :: r.failures.flatMap Failure.numbers, Limits.IsShort n) :
    r.text started layout = .error .tooManyDigits := by
  rw [Report.text, hdocument, Limits.checkAllDigits_eq, if_neg hlong]
  rfl

/-- A document whose records have no name twice: the report and the entries for its failures. -/
structure HasUniqueNames (document : Json) (entries : List (List (String × Json))) : Prop where
  report : ∃ members, document = .record members ∧ (members.map Prod.fst).Nodup
  entries : ∀ entry ∈ entries, (entry.map Prod.fst).Nodup

end Report

/-- A text in ASCII from which a document is read. -/
structure Json.Keeps (text : String) (document : Json) : Prop where
  ascii : ∀ c ∈ text.toList, c.toNat < 128
  reads : Json.parse? text = some document

/-- What is printed of a document keeps it, in every layout. -/
theorem Json.keeps_print (layout : Layout) (document : Json) : Keeps (print layout document) document where
  ascii := by
    rw [print, String.toList_ofList]
    exact isAscii_chars layout document 0
  reads := parse?_print layout document

/-- A report whose dimensions are plain and whose whole numbers are short loses nothing when it is
saved. In every layout its text keeps its document; the document has an entry for each failure, and a
failure is known by its entry. A report with a number that is too long has no text in any layout. -/
theorem saved_report_lossless (started : Timestamp) :
    (∀ r : Report Float, r.HasShortNumbers → (∀ f ∈ r.failures, f.mismatch.HasPlainAxis) →
      ∃ document entries, r.document started = .ok document ∧
        document.member? "failures" = some (.list (entries.map .record)) ∧
        List.Forall₂ (fun f entry => f.members = .ok entry) r.failures entries ∧
        Report.HasUniqueNames document entries ∧
        ∀ layout, ∃ text, r.text started layout = .ok text ∧ Json.Keeps text document) ∧
    (∀ (f g : Failure Float) (entry : List (String × Json)), f.mismatch.HasPlainAxis →
      g.mismatch.HasPlainAxis → f.members = .ok entry → g.members = .ok entry → f = g) ∧
    ∀ r : Report Float, ¬ r.HasShortNumbers → (∀ f ∈ r.failures, f.mismatch.HasPlainAxis) →
      ∀ layout, r.text started layout = .error .tooManyDigits := by
  refine ⟨fun r hshort hplain => ?_, fun f g entry => Failure.eq_of_members,
    fun r hlong hplain layout => ?_⟩
  · obtain ⟨document, hdocument⟩ :=
      (Report.exists_document_iff started).mpr fun f hf => (hplain f hf).hasAxis
    obtain ⟨entries, hentries, heq⟩ := Report.document_eq_ok_iff.mp hdocument
    refine ⟨document, entries, hdocument, ?_, hentries, ⟨⟨_, heq, ?_⟩, ?_⟩, fun layout =>
      ⟨_, Report.text_of_short hdocument hshort, Json.keeps_print layout document⟩⟩
    · rw [heq]
      rfl
    · simp only [List.map_cons, List.map_nil]
      decide
    · intro entry hentry
      obtain ⟨f, -, hmembers⟩ := exists_answer_mem hentries.flip hentry
      exact Failure.nodup_members hmembers
  · obtain ⟨document, hdocument⟩ :=
      (Report.exists_document_iff started).mpr fun f hf => (hplain f hf).hasAxis
    exact Report.text_of_long hdocument fun h => hlong (Report.hasShortNumbers_of_numbers hplain h)

/-- A failure on a backend whose name needs escapes, with the doubles that JSON has no number for. -/
def Failure.strange (expected : Float) : Failure Float :=
  ⟨"\"é\n😀", .single 2, ⟨0, 2, .velocity, 0.0 / 0.0, expected, 1.0 / 0.0⟩⟩

/-- A report with the strange failure. -/
def Report.strange : Report Float :=
  ⟨"rapport é", ["😀"],
    [⟨(Failure.strange (-0.0)).backend, .single 2, 6, [(Failure.strange (-0.0)).mismatch]⟩]⟩

/-- The numbers of the strange report are short. -/
theorem Report.hasShortNumbers_strange : strange.HasShortNumbers where
  checks := by
    unfold Limits.IsShort
    decide +kernel
  failures := by
    intro f hf
    obtain rfl := List.mem_singleton.mp hf
    constructor <;> unfold Limits.IsShort <;> decide +kernel

/-- The strange report is kept on one line and in the layout of saved reports, and the entry for its
failure differs from that for a failure with zero of the other sign. -/
theorem saved_report_lossless_strange :
    (∃ document, Report.strange.document .early = .ok document ∧
      (∃ text, Report.strange.text .early .line = .ok text ∧ Json.Keeps text document) ∧
      ∃ text, Report.strange.text .early Report.savedLayout = .ok text ∧ Json.Keeps text document) ∧
    ¬ ∃ entry, (Failure.strange (-0.0)).members = .ok entry ∧
      (Failure.strange 0.0).members = .ok entry := by
  obtain ⟨hreports, hfailures, -⟩ := saved_report_lossless .early
  have hplain : ∀ f ∈ Report.strange.failures, f.mismatch.HasPlainAxis := by
    intro f hf
    obtain rfl := List.mem_singleton.mp hf
    exact ⟨by decide, by decide⟩
  obtain ⟨document, entries, hdocument, -, -, -, htexts⟩ :=
    hreports _ Report.hasShortNumbers_strange hplain
  refine ⟨⟨document, hdocument, htexts .line, htexts Report.savedLayout⟩, ?_⟩
  intro h
  obtain ⟨entry, hentry, hother⟩ := h
  have heq := hfailures _ _ entry ⟨by decide, by decide⟩ ⟨by decide, by decide⟩ hentry hother
  exact absurd heq (by decide +kernel)

/-- A report whose checks have one digit too many has no text. -/
theorem text_eq_error_of_overlong :
    Report.overlong.text .early Report.savedLayout = .error .tooManyDigits := by
  have hfailures : Report.overlong.failures = [] := by
    rw [Report.overlong, Report.ofResults_eq]
    rfl
  obtain ⟨document, hdocument⟩ :=
    (Report.exists_document_iff (r := .overlong) .early).mpr (by simp [hfailures])
  exact Report.text_of_long hdocument fun hshort =>
    Report.not_isShort_overlong (hshort _ List.mem_cons_self)

end Leapfrog
