import Leapfrog.Proofs.DoubleSigns
import Leapfrog.Proofs.StateAdvance
import Leapfrog.Proofs.ValidatorAgreement

/-!
# Numbers that are refused

Whatever is made of numbers looks at them one after the other before it makes anything, and the
first number that is out of range decides how it is refused. A count is in range if its exact value
is a natural number, a timestep if it has a positive value, a bound on the error if it has one that
is not negative.

Numbers out of range are values that are not accepted, with two exceptions. A count is converted to a
whole number before it is looked at, and that overflows where it is infinite. A timestep or a bound
that is given as a whole number of more than 64 bits is refused for its form, in range or not.
-/

namespace Leapfrog

/-- Something that a call requires, and the sort of trouble in which it ends without it. -/
structure Requirement where
  holds : Prop
  kind : Fault.Kind

/-- A call is refused, in trouble of a given sort. -/
def IsRefused {β : Type} (answer : Except (Fault Float) β) (kind : Fault.Kind) : Prop :=
  ∃ fault, answer = .error fault ∧ fault.kind = kind

/-- The answer of a call that looks at its requirements in order, and at the rest afterwards. It is
accepted if all of them are met, and refused as the first one says that is not. -/
structure Requires {β : Type} (requirements : List Requirement) (rest : Prop)
    (answer : Except (Fault Float) β) : Prop where
  accepts : (∃ b, answer = .ok b) ↔ (∀ r ∈ requirements, r.holds) ∧ rest
  refuses : ∀ before r after, requirements = before ++ r :: after →
    (∀ r' ∈ before, r'.holds) → ¬ r.holds → IsRefused answer r.kind

namespace Requires

variable {β γ : Type} {p rest : Prop} {kind : Fault.Kind} {requirements : List Requirement}

/-- A call without requirements of its own. -/
theorem nil {answer : Except (Fault Float) β} (h : (∃ b, answer = .ok b) ↔ rest) :
    Requires [] rest answer :=
  ⟨by simp [h], fun before r after hsplit => by simp at hsplit⟩

/-- A call with a single requirement. -/
theorem single {answer : Except (Fault Float) β} (haccepts : (∃ b, answer = .ok b) ↔ p)
    (hrefuses : ∀ fault, answer = .error fault → fault.kind = kind) :
    Requires [⟨p, kind⟩] True answer := by
  refine ⟨by simp [haccepts], fun before r after hsplit _ hmissed => ?_⟩
  obtain ⟨rfl, rfl, -⟩ : before = [] ∧ r = ⟨p, kind⟩ ∧ after = [] := by
    cases before with
    | nil => simpa [eq_comm] using hsplit
    | cons _ _ => simp at hsplit
  cases hanswer : answer with
  | ok b => exact absurd (haccepts.mp ⟨b, hanswer⟩) hmissed
  | error fault => exact ⟨fault, rfl, hrefuses fault hanswer⟩

/-- A call that is accepted when another one is, and refused for the same reason. -/
theorem congr {x : Except (Fault Float) γ} {answer : Except (Fault Float) β}
    (hx : Requires requirements rest x) (hok : (∃ b, answer = .ok b) ↔ ∃ a, x = .ok a)
    (herror : ∀ fault, x = .error fault → answer = .error fault) :
    Requires requirements rest answer := by
  refine ⟨hok.trans hx.accepts, fun before r after hsplit hbefore hmissed => ?_⟩
  obtain ⟨fault, hfault, hkind⟩ := hx.refuses before r after hsplit hbefore hmissed
  exact ⟨fault, herror fault hfault, hkind⟩

/-- A call that looks at some requirements and goes on as another call does. -/
theorem bind {first : List Requirement} {x : Except (Fault Float) γ}
    {f : γ → Except (Fault Float) β} (hx : Requires first True x)
    (hf : ∀ a, x = .ok a → Requires requirements rest (f a)) :
    Requires (first ++ requirements) rest (x >>= f) := by
  have hfirst : (∃ a, x = .ok a) ↔ ∀ r ∈ first, r.holds := by
    simpa using hx.accepts
  constructor
  · rw [List.forall_mem_append, and_assoc]
    cases hanswer : x with
    | error fault =>
      have hmissed : ¬ ∀ r ∈ first, r.holds := by
        rw [← hfirst, hanswer]
        simp
      simp only [bind_eq_ok_iff, reduceCtorEq, false_and, exists_false, hmissed]
    | ok a =>
      have hmet : ∀ r ∈ first, r.holds := hfirst.mp ⟨a, hanswer⟩
      exact (hf a hanswer).accepts.trans (and_iff_right hmet).symm
  · intro before r after hsplit hbefore hmissed
    rcases List.append_eq_append_iff.mp hsplit with ⟨others, rfl, hothers⟩ | ⟨others, hsplit, hothers⟩
    · obtain ⟨hmet, hbefore⟩ := List.forall_mem_append.mp hbefore
      obtain ⟨a, ha⟩ := hfirst.mpr hmet
      obtain ⟨fault, hfault, hkind⟩ := (hf a ha).refuses others r after hothers hbefore hmissed
      exact ⟨fault, by rw [ha]; exact hfault, hkind⟩
    · cases others with
      | nil =>
        rw [List.append_nil] at hsplit
        subst hsplit
        obtain ⟨a, ha⟩ := hfirst.mpr hbefore
        obtain ⟨fault, hfault, hkind⟩ :=
          (hf a ha).refuses [] r after hothers.symm nofun hmissed
        exact ⟨fault, by rw [ha]; exact hfault, hkind⟩
      | cons _ others =>
        obtain ⟨rfl, -⟩ := List.cons.inj hothers
        obtain ⟨fault, hfault, hkind⟩ := hx.refuses before r others hsplit hbefore hmissed
        exact ⟨fault, by rw [hfault]; rfl, hkind⟩

/-- A call that stops with a fault unless something holds, and goes on as another call does. -/
theorem guard [Decidable p] {fault : Fault Float} {answer : Except (Fault Float) β}
    (hkind : fault.kind = kind) (h : p → Requires requirements rest answer) :
    Requires (⟨p, kind⟩ :: requirements) rest (if ¬ p then .error fault else answer) := by
  have hbind : (if ¬ p then .error fault else answer) =
      ((if p then .ok () else .error fault : Except (Fault Float) Unit) >>= fun _ => answer) := by
    by_cases hp : p
    · rw [if_neg (not_not.mpr hp), if_pos hp]
      rfl
    · rw [if_pos hp, if_neg hp]
      rfl
  rw [hbind]
  refine bind (.single ?_ fun other hother => ?_) fun _ hpassed => h ?_
  · by_cases hp : p <;> simp [hp]
  · split at hother
    · cases hother
    · rw [← Except.error.inj hother, hkind]
  · by_contra hp
    rw [if_neg hp] at hpassed
    cases hpassed

end Requires

namespace Number

/-- A count of atoms: a natural number from one up. -/
def IsAtomCount (count : Number Float) : Prop :=
  ∃ n : ℕ, 0 < n ∧ count.value? = some (n : ℚ)

/-- A count of steps: a natural number. -/
def IsStepCount (count : Number Float) : Prop := ∃ n : ℕ, count.value? = some (n : ℚ)

/-- A timestep: finite and above zero. -/
def IsTimestep (t : Number Float) : Prop := ∃ q, t.value? = some q ∧ 0 < q

/-- A bound on the error of a step: finite and not below zero. -/
def IsEpsilon (t : Number Float) : Prop := ∃ q, t.value? = some q ∧ 0 ≤ q

/-- Whether a number is one of the infinities. -/
def isInfinite : Number Float → Bool
  | .whole _ => false
  | .scalar x => !Scalar.isNaN x && !Scalar.isFinite x

/-- The sort of trouble that a count out of range makes. -/
def countKind (count : Number Float) : Fault.Kind :=
  if count.isInfinite then .overflow else .value

variable {count : Number Float}

/-- A number is not converted to a whole number if it is infinite or not a number at all. -/
theorem kind_of_toInt? {fault : Fault Float} (h : count.toInt? = .error fault) :
    fault.kind = count.countKind := by
  cases count with
  | whole n => cases h
  | scalar x =>
    unfold toInt? at h
    dsimp only at h
    unfold countKind isInfinite
    split at h
    · next hnan =>
      obtain rfl := Except.error.inj h
      simp [hnan, Fault.kind]
    · next hnumber =>
      split at h
      · next hinfinite =>
        obtain rfl := Except.error.inj h
        simp_all [Fault.kind]
      · cases h

/-- A number that is converted to a whole number is not infinite. -/
theorem countKind_of_toInt? {whole? : Option Int} (h : count.toInt? = .ok whole?) :
    count.countKind = .value := by
  cases count with
  | whole n => rfl
  | scalar x =>
    unfold toInt? at h
    dsimp only at h
    unfold countKind isInfinite
    split at h
    · cases h
    · split at h
      · cases h
      · next hfinite =>
        simp at hfinite
        simp [hfinite]

/-- A count of atoms that is not accepted. -/
theorem kind_of_atoms {fault : Fault Float} (h : count.atoms = .error fault) :
    fault.kind = count.countKind := by
  unfold atoms at h
  rcases bind_eq_error_iff.mp h with hconversion | ⟨whole?, hwhole, h⟩
  · exact kind_of_toInt? hconversion
  · rw [countKind_of_toInt? hwhole]
    split at h
    · split at h
      · cases h
      · obtain rfl := Except.error.inj h
        rfl
    · obtain rfl := Except.error.inj h
      rfl

/-- A count of steps that is not accepted. -/
theorem kind_of_steps {fault : Fault Float} (h : count.steps = .error fault) :
    fault.kind = count.countKind := by
  unfold steps at h
  rcases bind_eq_error_iff.mp h with hconversion | ⟨whole?, hwhole, h⟩
  · exact kind_of_toInt? hconversion
  · rw [countKind_of_toInt? hwhole]
    split at h
    · split at h
      · cases h
      · obtain rfl := Except.error.inj h
        rfl
    · obtain rfl := Except.error.inj h
      rfl

/-- What a count of atoms requires. -/
theorem requires_atoms (count : Number Float) :
    Requires [⟨count.IsAtomCount, count.countKind⟩] True count.atoms := by
  refine .single ?_ fun fault => kind_of_atoms
  simp only [atoms_eq_ok_iff, IsAtomCount, Subtype.exists, exists_prop]

/-- What a count of steps requires. -/
theorem requires_steps (count : Number Float) :
    Requires [⟨count.IsStepCount, count.countKind⟩] True count.steps := by
  refine .single ?_ fun fault => kind_of_steps
  simp only [steps_eq_ok_iff, IsStepCount]

/-- A whole number of at most 64 bits is converted to a finite double. -/
theorem toScalar_eq_nearest {t : Number Float} (h : t.FitsWord) : t.toScalar = .ok t.nearest := by
  cases t with
  | scalar x => rfl
  | whole n =>
    have hbound : 2 ^ 64 < Decimal.Binary64.overflow := by decide +kernel
    have hword : -2 ^ 63 ≤ n ∧ n < 2 ^ 64 := h
    exact if_pos ((Decimal.Binary64.isFinite_ofInt n).mpr (by omega))

/-- What a timestep requires: few enough bits, and then that it is in range. -/
theorem requires_timestep (t : Number Float) :
    Requires [⟨t.FitsWord, .form⟩, ⟨t.IsTimestep, .value⟩] True t.timestep := by
  rw [timestep_eq]
  refine .guard rfl fun hword => ?_
  unfold IsTimestep
  rw [← (sign_toScalar (toScalar_eq_nearest hword)).1]
  refine .single ?_ fun fault hfault => ?_
  · split <;> simp_all
  · split at hfault
    · cases hfault
    · obtain rfl := Except.error.inj hfault
      rfl

/-- What a bound on the error of a step requires: few enough bits, and then that it is in range. -/
theorem requires_epsilon (e : Number Float) :
    Requires [⟨e.FitsWord, .form⟩, ⟨e.IsEpsilon, .value⟩] True (Tolerance.ofEpsilon e) := by
  rw [Tolerance.ofEpsilon_eq]
  refine .guard rfl fun hword => ?_
  unfold IsEpsilon
  rw [← (sign_toScalar (toScalar_eq_nearest hword)).2]
  refine .single ?_ fun fault hfault => ?_
  · split <;> simp_all
  · split at hfault
    · cases hfault
    · obtain rfl := Except.error.inj hfault
      rfl

end Number

/-- A list makes a vector exactly if it has three entries. -/
theorem Scenario.exists_vector_iff (name : String) (components : List Float) :
    (∃ v, vector name components = .ok v) ↔ components.length = 3 := by
  unfold vector
  match components with
  | [_, _, _] => simp [Vec3.ofList?]
  | [] | [_] | [_, _] | _ :: _ :: _ :: _ :: _ => simp [Vec3.ofList?]

/-- An array makes a vector exactly if it is a row of three entries. -/
theorem Synthetic.exists_vector_iff (name : String) (t : Tensor Float) :
    (∃ v, vector name t = .ok v) ↔ t.shape = [3] := by
  constructor
  · rintro ⟨v, hv⟩
    unfold vector Limits.checkedAxes Tensor.vector? at hv
    obtain ⟨_, haxes, hv⟩ := bind_eq_ok_iff.mp hv
    split at haxes
    · obtain rfl := Except.ok.inj haxes
      by_contra hshape
      rw [if_neg hshape] at hv
      cases hv
    · cases haxes
  · obtain ⟨shape, entries, hlength⟩ := t
    rintro rfl
    match entries, hlength with
    | [a, b, c], _ => exact ⟨⟨a, b, c⟩, rfl⟩

/-- What a scenario requires. -/
theorem Scenario.requires_make (atoms t steps : Number Float) (v0 f0 : List Float) :
    Requires [⟨atoms.IsAtomCount, atoms.countKind⟩, ⟨t.FitsWord, .form⟩, ⟨t.IsTimestep, .value⟩,
      ⟨steps.IsStepCount, steps.countKind⟩] (v0.length = 3 ∧ f0.length = 3)
      (make atoms t v0 f0 steps) := by
  refine (Number.requires_atoms atoms).bind fun ⟨n, hn⟩ _ =>
    (Number.requires_timestep t).bind fun ⟨timestep, htimestep⟩ _ =>
      (Number.requires_steps steps).bind fun k _ => .nil ?_
  rw [← exists_vector_iff "v0" v0, ← exists_vector_iff "f0" f0]
  simp only [bind_eq_ok_iff]
  constructor
  · rintro ⟨_, velocity, hvelocity, force, hforce, -⟩
    exact ⟨⟨velocity, hvelocity⟩, force, hforce⟩
  · rintro ⟨⟨velocity, hvelocity⟩, force, hforce⟩
    exact ⟨_, velocity, hvelocity, force, hforce, rfl⟩

/-- What a simulation that is built requires. -/
theorem Synthetic.requires_build [Machine] (atoms t : Number Float) (v0 f0 : Tensor Float) :
    Requires [⟨atoms.IsAtomCount, atoms.countKind⟩, ⟨t.FitsWord, .form⟩, ⟨t.IsTimestep, .value⟩]
      (v0.shape = [3] ∧ f0.shape = [3] ∧
        ∃ n : ℕ, atoms.value? = some (n : ℚ) ∧ 24 * n ≤ Machine.memory)
      (build atoms t v0 f0) := by
  refine (Number.requires_atoms atoms).bind fun ⟨n, hn⟩ hatoms =>
    (Number.requires_timestep t).bind fun ⟨timestep, htimestep⟩ _ => .nil ?_
  have hvalue : atoms.value? = some (n : ℚ) := Number.atoms_eq_ok_iff.mp hatoms
  have hmemory : (∃ k : ℕ, atoms.value? = some (k : ℚ) ∧ 24 * k ≤ Machine.memory) ↔
      checkSize (α := Float) n = .ok () := by
    rw [hvalue, checkSize_eq_ok_iff]
    simp
  rw [hmemory, ← exists_vector_iff "v0" v0, ← exists_vector_iff "f0" f0]
  simp only [bind_eq_ok_iff, fresh]
  constructor
  · rintro ⟨_, velocity, hvelocity, force, hforce, _, hsize, -⟩
    exact ⟨⟨velocity, hvelocity⟩, ⟨force, hforce⟩, hsize⟩
  · rintro ⟨⟨velocity, hvelocity⟩, ⟨force, hforce⟩, hsize⟩
    exact ⟨_, velocity, hvelocity, force, hforce, (), hsize, rfl⟩

namespace Arrays

open Condition (check check_of_holds check_of_not_holds)

variable (a : Arrays Float)

/-- A condition on arrays is a requirement like others. -/
theorem requires_check {c : Condition} (htimestep : c ≠ .timestep) :
    Requires [⟨c.Holds a, .value⟩] True (check a c) := by
  by_cases hc : c.Holds a
  · rw [check_of_holds hc]
    exact .single (by simp [hc]) nofun
  · rw [check_of_not_holds hc]
    refine .single (by simp [hc]) fun fault hfault => ?_
    obtain rfl := Except.error.inj hfault
    rw [c.kind_fault a, if_neg fun h => htimestep h.1]

/-- What arrays require: a row of positive inverse masses, a timestep, and then the rest. -/
theorem requires_ofArrays :
    Requires [⟨Condition.massRow.Holds a, .value⟩, ⟨Condition.someAtom.Holds a, .value⟩,
        ⟨Condition.massRange.Holds a, .value⟩, ⟨a.timestep.FitsWord, .form⟩,
        ⟨a.timestep.IsTimestep, .value⟩]
      (a.HasShortGroups ∧ ∀ c : Condition, c ≠ .timestep → c.Holds a) (Simulation.ofArrays a) := by
  have haccepted (h : Condition.timestep.Holds a) : (∃ s, Simulation.ofArrays a = .ok s) ↔
      a.HasShortGroups ∧ ∀ c : Condition, c ≠ .timestep → c.Holds a := by
    constructor
    · rintro ⟨s, hs⟩
      have hshort := hasShortGroups_of_ofArrays hs
      exact ⟨hshort, fun c _ => (hshort.ofArrays_eq_ok_iff.mp hs).1 c⟩
    · rintro ⟨hshort, hothers⟩
      refine ⟨a.simulation, hshort.ofArrays_eq_ok_iff.mpr ⟨fun c => ?_, rfl⟩⟩
      by_cases hc : c = .timestep
      · rw [hc]
        exact h
      · exact hothers c hc
  obtain ⟨rest, horder⟩ : ∃ rest, Simulation.ofArrays a =
      (check a .massRow >>= fun _ => check a .someAtom >>= fun _ => check a .massRange >>= fun _ =>
        a.timestep.timestep >>= rest) := by
    unfold Simulation.ofArrays
    simp only [checkedMasses_eq, bind_assoc, pure_bind]
    exact ⟨_, rfl⟩
  rw [horder]
  refine (a.requires_check (c := .massRow) nofun).bind fun _ hrow =>
    (a.requires_check (c := .someAtom) nofun).bind fun _ hsome =>
      (a.requires_check (c := .massRange) nofun).bind fun _ hrange =>
        (Number.requires_timestep a.timestep).bind fun timestep htimestep => .nil ?_
  obtain ⟨hword, hnearest⟩ := Number.timestep_eq_ok_iff.mp htimestep
  rw [← haccepted ⟨hword, hnearest ▸ timestep.2⟩, horder, hrow, hsome, hrange, htimestep]
  rfl

end Arrays

namespace State

/-- What a state requires is what the numbers require that it is made from. -/
theorem requires_make (outside : Memory Nat Float) (supplies : Supplies Float) :
    Requires [⟨Arrays.Condition.massRow.Holds (supplies.read outside), .value⟩,
        ⟨Arrays.Condition.someAtom.Holds (supplies.read outside), .value⟩,
        ⟨Arrays.Condition.massRange.Holds (supplies.read outside), .value⟩,
        ⟨supplies.timestep.FitsWord, .form⟩, ⟨supplies.timestep.IsTimestep, .value⟩]
      ((supplies.read outside).HasShortGroups ∧
        ∀ c : Arrays.Condition, c ≠ .timestep → c.Holds (supplies.read outside))
      (make outside supplies) :=
  (supplies.read outside).requires_ofArrays.congr exists_make_iff fun _ => make_eq_error_iff.mpr

variable {b : Backend Float} {s : State Float} {count : Number Float}

/-- A count of steps that is out of range is refused before anything is changed. -/
theorem exists_fault_of_not_isStepCount (h : ¬ count.IsStepCount) (b : Backend Float)
    (s : State Float) :
    ∃ fault, s.advance b count = ⟨s, some fault⟩ ∧ fault.kind = count.countKind := by
  cases hsteps : count.steps with
  | error fault => exact ⟨fault, advance_of_refused hsteps, Number.kind_of_steps hsteps⟩
  | ok n => exact absurd ⟨n, Number.steps_eq_ok_iff.mp hsteps⟩ h

/-- A count of steps that is in range is handed to the backend as a natural number. -/
theorem advance_of_value? {n : ℕ} (h : count.value? = some (n : ℚ)) (b : Backend Float)
    (s : State Float) :
    s.advance b count = if n = 0 then ⟨s, none⟩ else (s.integrate b n).andThen (clock n) := by
  have hsteps : count.steps = .ok n := Number.steps_eq_ok_iff.mpr h
  split
  · next hzero => exact advance_of_zero (hzero ▸ hsteps)
  · next hpos => exact advance_of_pos hsteps (Nat.pos_of_ne_zero hpos)

/-- A genuine backend refuses nothing but counts that are out of range, where a state owns its motion,
all groups are in the table and a whole number converts to a double. -/
theorem OwnsMotion.fault?_eq_none_iff [Machine] (hs : s.OwnsMotion) (hb : b.IsGenuine)
    (hmatrix : s.scalingShape = [3, 3]) (hgroups : s.load.HasGroups)
    (hcount : ∀ n : Int, count = .whole n → (Scalar.ofInt n : Float).isFinite = true) :
    (s.advance b count).fault? = none ↔ count.IsStepCount := by
  obtain ⟨m, hm⟩ := Tensor.exists_eq_ofMat3 (t := s.load.velocityScaling) hmatrix
  constructor
  · intro h
    by_contra hrange
    obtain ⟨fault, hfault, -⟩ := exists_fault_of_not_isStepCount hrange b s
    rw [hfault] at h
    cases h
  · rintro ⟨n, hn⟩
    have hrefuses : ¬ s.load.Refuses count := by
      rintro (hnatural | ⟨-, hmissing⟩)
      · exact hnatural n hn
      · exact hmissing hgroups
    obtain ⟨-, -, after, hafter, -⟩ := hb.exists_advanced_of_not_refuses hm hcount hrefuses
    rw [(hs.follows hb hm count).fault, hafter]

end State

/-- Bad numbers are refused where they enter, before anything is made or changed. Each call accepts
exactly the numbers that are in range, and the first one that is not decides how it is refused: as a
value that is not accepted, unless it is an infinite count. The rest that a call requires is about
lengths of vectors, room for the atoms and the other arrays, and an advance requires that the state owns
its motion and all groups are in the table. A timestep or a bound that is given as a whole number must
have at most 64 bits, and is refused for its form otherwise. -/
theorem bad_numbers_are_refused [Machine] (atoms steps t e : Number Float) :
    (∀ v0 f0 : List Float,
      Requires [⟨atoms.IsAtomCount, atoms.countKind⟩, ⟨t.FitsWord, .form⟩, ⟨t.IsTimestep, .value⟩,
          ⟨steps.IsStepCount, steps.countKind⟩]
        (v0.length = 3 ∧ f0.length = 3) (Scenario.make atoms t v0 f0 steps)) ∧
    (∀ v0 f0 : Tensor Float,
      Requires [⟨atoms.IsAtomCount, atoms.countKind⟩, ⟨t.FitsWord, .form⟩, ⟨t.IsTimestep, .value⟩]
        (v0.shape = [3] ∧ f0.shape = [3] ∧
          ∃ n : ℕ, atoms.value? = some (n : ℚ) ∧ 24 * n ≤ Machine.memory)
        (Synthetic.build atoms t v0 f0)) ∧
    (∀ (outside : Memory Nat Float) (supplies : Supplies Float), supplies.timestep = t →
      Requires [⟨Arrays.Condition.massRow.Holds (supplies.read outside), .value⟩,
          ⟨Arrays.Condition.someAtom.Holds (supplies.read outside), .value⟩,
          ⟨Arrays.Condition.massRange.Holds (supplies.read outside), .value⟩,
          ⟨t.FitsWord, .form⟩, ⟨t.IsTimestep, .value⟩]
        ((supplies.read outside).HasShortGroups ∧
          ∀ c : Arrays.Condition, c ≠ .timestep → c.Holds (supplies.read outside))
        (State.make outside supplies)) ∧
    Requires [⟨e.FitsWord, .form⟩, ⟨e.IsEpsilon, .value⟩] True (Tolerance.ofEpsilon e) ∧
    ∀ (b : Backend Float) (s : State Float),
      (¬ steps.IsStepCount →
        ∃ fault, s.advance b steps = ⟨s, some fault⟩ ∧ fault.kind = steps.countKind) ∧
      (∀ n : ℕ, steps.value? = some (n : ℚ) →
        s.advance b steps =
          if n = 0 then ⟨s, none⟩ else (s.integrate b n).andThen (State.clock n)) ∧
      (b.IsGenuine → s.OwnsMotion → s.scalingShape = [3, 3] → s.load.HasGroups →
        (∀ n : Int, steps = .whole n → (Scalar.ofInt n : Float).isFinite = true) →
        ((s.advance b steps).fault? = none ↔ steps.IsStepCount)) :=
  ⟨fun v0 f0 => Scenario.requires_make atoms t steps v0 f0,
    fun v0 f0 => Synthetic.requires_build atoms t v0 f0,
    fun outside supplies ht => ht ▸ State.requires_make outside supplies,
    Number.requires_epsilon e,
    fun b s => ⟨fun h => State.exists_fault_of_not_isStepCount h b s,
      fun _ h => State.advance_of_value? h b s,
      fun hb hs hmatrix hgroups hcount => hs.fault?_eq_none_iff hb hmatrix hgroups hcount⟩⟩

/-- Two atoms without a timestep that is a number. -/
def Supplies.timeless : Supplies Float :=
  .ofArrays { Simulation.grouped.arrays with timestep := .scalar (0 / 0) }

open Workstation

/-- A timestep of minus one, a state without a timestep, a bound of minus infinity and a count that is
not a number are all refused as values that are not accepted; the double two is a count of steps. -/
theorem bad_numbers_are_refused_timeless :
    IsRefused (Scenario.make (.whole 2) (.whole (-1)) [1, 0, 0] [2, 0, -1] (.whole 1)) .value ∧
    IsRefused (Synthetic.build (.whole 2) (.whole (-1)) (.row [1, 0, 0]) (.row [2, 0, -1]))
      .value ∧
    IsRefused (State.make .blank .timeless) .value ∧
    IsRefused (Tolerance.ofEpsilon (.scalar (-1 / 0))) .value ∧
    (∃ fault, (State.own .grouped).advance .host (.scalar (0 / 0)) =
      ⟨.own .grouped, some fault⟩ ∧ fault.kind = .value) ∧
    (Number.scalar 2).value? = some ((2 : ℕ) : ℚ) ∧
    (Backend.host : Backend Float).IsGenuine ∧ (State.own .grouped).OwnsMotion ∧
    Simulation.grouped.HasGroups ∧
    ((State.own .grouped).advance .host (.scalar 2)).fault? = none := by
  obtain ⟨hmake, hbuild, -, -, -⟩ :=
    bad_numbers_are_refused (.whole 2) (.whole 1) (.whole (-1)) (.whole 0)
  obtain ⟨-, -, hstate, hepsilon, hnumberless⟩ :=
    bad_numbers_are_refused (.whole 2) (.scalar (0 / 0)) (.scalar (0 / 0)) (.scalar (-1 / 0))
  obtain ⟨-, -, -, -, hadvance⟩ :=
    bad_numbers_are_refused (.whole 2) (.scalar 2) (.whole 1) (.whole 0)
  have hatoms : (Number.whole 2 : Number Float).IsAtomCount := ⟨2, by decide, rfl⟩
  have hword : (Number.whole (-1) : Number Float).FitsWord := by decide
  have hbefore : ¬ (Number.whole (-1) : Number Float).IsTimestep := by
    rintro ⟨q, hq, hpos⟩
    obtain rfl := Option.some.inj hq
    revert hpos
    decide
  have hnan : (Number.scalar (0 / 0)).value? = none := by decide +kernel
  have hinfinite : (Number.scalar (-1 / 0)).value? = none := by decide +kernel
  have hhost : (Backend.host : Backend Float).IsGenuine := .inl rfl
  have hgroups : Simulation.grouped.HasGroups := by
    refine ⟨Nat.le_refl 2, fun group hgroup => ?_⟩
    have hzero : group = 0 := Array.eq_of_mem_replicate hgroup
    rw [hzero]
    decide
  have howns : (State.own .grouped).OwnsMotion := State.ownsMotion_own .grouped
  refine ⟨?_, ?_, ?_, ?_, ?_, Number.value?_two, hhost, howns, hgroups, ?_⟩
  · exact (hmake _ _).refuses [_, _] _ [_] rfl (by simpa using ⟨hatoms, hword⟩) hbefore
  · exact (hbuild _ _).refuses [_, _] _ [] rfl (by simpa using ⟨hatoms, hword⟩) hbefore
  · have hmasses : Arrays.Condition.massRow.Holds (Supplies.timeless.read .blank) ∧
        Arrays.Condition.someAtom.Holds (Supplies.timeless.read .blank) ∧
        Arrays.Condition.massRange.Holds (Supplies.timeless.read .blank) := by
      decide +kernel
    refine (hstate .blank .timeless rfl).refuses [_, _, _, _] _ [] rfl
      (by simpa using ⟨hmasses.1, hmasses.2.1, hmasses.2.2, trivial⟩) ?_
    rintro ⟨q, hq, -⟩
    rw [hnan] at hq
    cases hq
  · refine hepsilon.refuses [_] _ [] rfl (List.forall_mem_singleton.mpr trivial) ?_
    rintro ⟨q, hq, -⟩
    rw [hinfinite] at hq
    cases hq
  · refine (hnumberless .host (.own .grouped)).1 ?_
    rintro ⟨n, hn⟩
    rw [hnan] at hn
    cases hn
  · refine ((hadvance .host (.own .grouped)).2.2 hhost howns rfl ?_ nofun).mpr
      ⟨2, Number.value?_two⟩
    rwa [State.load_own]

/-- An infinite count is out of range everywhere, and is refused as a number that is too large. A
whole number of 65 bits is in range as a timestep and as a bound, and is refused for its form. -/
theorem infinite_counts_overflow :
    ¬ (Number.scalar (1 / 0)).IsAtomCount ∧ ¬ (Number.scalar (1 / 0)).IsStepCount ∧
    IsRefused (Scenario.make (.scalar (1 / 0)) (.scalar 0.5) [1, 0, 0] [2, 0, -1] (.whole 1)) .overflow ∧
    IsRefused (Scenario.make (.whole 1) (.scalar 0.5) [1, 0, 0] [2, 0, -1] (.scalar (1 / 0))) .overflow ∧
    IsRefused (Synthetic.build (.scalar (1 / 0)) (.scalar 0.5) (.row [1, 0, 0])
      (.row [2, 0, -1])) .overflow ∧
    (State.own .grouped).advance .host (.scalar (1 / 0)) =
      ⟨.own .grouped, some .infiniteCount⟩ ∧
    (Number.whole (2 ^ 64) : Number Float).IsTimestep ∧
    (Number.whole (2 ^ 64) : Number Float).IsEpsilon ∧
    IsRefused (Scenario.make (.whole 1) (.whole (2 ^ 64)) [1, 0, 0] [2, 0, -1] (.whole 1)) .form ∧
    IsRefused (Tolerance.ofEpsilon (.whole (2 ^ 64))) .form := by
  have hinfinite : (Number.scalar (1 / 0)).value? = none := by decide +kernel
  refine ⟨?_, ?_, ⟨.infiniteCount, by decide +kernel, rfl⟩, ⟨.infiniteCount, by decide +kernel, rfl⟩,
    ⟨.infiniteCount, by decide +kernel, rfl⟩, State.advance_of_refused (by decide +kernel),
    ⟨_, rfl, by norm_num⟩, ⟨_, rfl, by norm_num⟩,
    ⟨.wideNumber, rfl, rfl⟩, .wideNumber, rfl, rfl⟩
  · rintro ⟨n, -, hn⟩
    rw [hinfinite] at hn
    cases hn
  · rintro ⟨n, hn⟩
    rw [hinfinite] at hn
    cases hn

end Leapfrog
