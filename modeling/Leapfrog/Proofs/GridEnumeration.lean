import Leapfrog.Proofs.RunResults
import Mathlib.Tactic.IntervalCases

/-!
# The enumeration of a grid

A grid is counted through in the mixed radix of the lengths of its axes: the digits of an index say
which value each axis contributes, the steps at the least significant digit and the atoms at the
most significant one. The nested loops that list all combinations and the digits that find one of
them are two accounts of the same order.

Scenarios are formed as the enumeration comes to them, so the first combination that is none ends
it, whatever stands behind it.
-/

namespace Leapfrog

/-- A digit of an index in a mixed radix, whose radices are given from the least significant one
on -/
def mixedDigit : List Nat → Nat → Nat → Nat
  | [], _, _ => 0
  | radix :: _, 0, index => index % radix
  | radix :: rest, place + 1, index => mixedDigit rest place (index / radix)

/-- An index below the product of the radices is known by its digits. -/
theorem eq_of_mixedDigit {radices : List Nat} {i j : Nat} (hi : i < radices.prod)
    (hj : j < radices.prod)
    (h : ∀ place < radices.length, mixedDigit radices place i = mixedDigit radices place j) :
    i = j := by
  induction radices generalizing i j with
  | nil =>
    rw [List.prod_nil, Nat.lt_one_iff] at hi hj
    rw [hi, hj]
  | cons radix rest ih =>
    rw [List.prod_cons] at hi hj
    have hlast : i % radix = j % radix := h 0 (Nat.succ_pos _)
    have hfront : i / radix = j / radix :=
      ih (Nat.div_lt_of_lt_mul hi) (Nat.div_lt_of_lt_mul hj) fun place hplace =>
        h (place + 1) (Nat.succ_lt_succ hplace)
    rw [← Nat.div_add_mod i radix, ← Nat.div_add_mod j radix, hlast, hfront]

/-- What is left of an index when all digits have been split off. -/
def mixedFront : List Nat → Nat → Nat
  | [], index => index
  | radix :: rest, index => mixedFront rest (index / radix)

/-- Nothing is left of an index below the product of the radices. -/
theorem mixedFront_eq_zero_iff {radices : List Nat} (h : ∀ radix ∈ radices, 0 < radix)
    {index : Nat} :
    mixedFront radices index = 0 ↔ index < radices.prod := by
  induction radices generalizing index with
  | nil => rw [mixedFront, List.prod_nil, Nat.lt_one_iff]
  | cons radix rest ih =>
    obtain ⟨hradix, hrest⟩ := List.forall_mem_cons.mp h
    rw [mixedFront, ih hrest, List.prod_cons, Nat.div_lt_iff_lt_mul hradix, Nat.mul_comm]

/-- The pairs with a first and a second entry of some sort are counted by counting both. -/
theorem countP_product {β γ : Type} (p : β → Bool) (q : γ → Bool) (firsts : List β)
    (seconds : List γ) :
    (firsts ×ˢ seconds).countP (fun pair => p pair.1 && q pair.2) =
      firsts.countP p * seconds.countP q := by
  induction firsts with
  | nil => simp
  | cons b rest ih =>
    rw [List.product_cons, List.countP_append, ih, List.countP_map, List.countP_cons]
    cases hb : p b
    · simp [Function.comp_def, hb]
    · simp [Function.comp_def, hb, Nat.add_mul, Nat.add_comm]

namespace Axes

variable {α : Type} {a : Axes α}

/-- The lengths of the axes, the fastest axis first. -/
def radices (a : Axes α) : List Nat :=
  [a.steps.length, a.fz.length, a.fy.length, a.fx.length, a.vz.length, a.vy.length, a.vx.length,
    a.timesteps.length, a.atoms.length]

/-- A digit of an index in the mixed radix of the axis lengths. -/
def digit (a : Axes α) (place index : Nat) : Nat := mixedDigit a.radices place index

/-- The combination whose values stand at the digits of an index. -/
structure Selects (a : Axes α) (index : Nat) (c : Combination α) : Prop where
  steps : a.steps[a.digit 0 index]? = some c.steps
  fz : a.fz[a.digit 1 index]? = some c.force.z
  fy : a.fy[a.digit 2 index]? = some c.force.y
  fx : a.fx[a.digit 3 index]? = some c.force.x
  vz : a.vz[a.digit 4 index]? = some c.velocity.z
  vy : a.vy[a.digit 5 index]? = some c.velocity.y
  vx : a.vx[a.digit 6 index]? = some c.velocity.x
  timestep : a.timesteps[a.digit 7 index]? = some c.timestep
  atoms : a.atoms[a.digit 8 index]? = some c.atoms

/-- There are as many combinations as the product of the radices says. -/
theorem size_eq_prod (a : Axes α) : a.size = a.radices.prod := by
  simp only [size, lengths, radices, List.foldl_cons, List.foldl_nil, List.prod_cons, List.prod_nil]
  ring

/-- The pairs of pairs of all values, from which the combinations are made. -/
def tuples (a : Axes α) := (((((((a.atoms ×ˢ a.timesteps) ×ˢ a.vx) ×ˢ a.vy) ×ˢ a.vz) ×ˢ a.fx) ×ˢ
  a.fy) ×ˢ a.fz) ×ˢ a.steps

/-- The nested loops list the tuples of all values in order. -/
theorem combinations_eq (a : Axes α) :
    a.combinations = a.tuples.map fun ((((((((n, t), vx), vy), vz), fx), fy), fz), k) =>
      ⟨n, t, ⟨vx, vy, vz⟩, ⟨fx, fy, fz⟩, k⟩ := by
  simp only [combinations, tuples, product_eq_flatMap, List.flatMap_assoc, List.flatMap_map,
    List.map_flatMap, List.map_map]
  rfl

/-- An index selects one combination only. -/
theorem Selects.unique {index : Nat} {c d : Combination α} (hc : a.Selects index c)
    (hd : a.Selects index d) : c = d := by
  obtain ⟨n, t, ⟨vx, vy, vz⟩, ⟨fx, fy, fz⟩, k⟩ := c
  obtain ⟨n', t', ⟨vx', vy', vz'⟩, ⟨fx', fy', fz'⟩, k'⟩ := d
  obtain rfl := Option.some.inj (hc.atoms.symm.trans hd.atoms)
  obtain rfl := Option.some.inj (hc.timestep.symm.trans hd.timestep)
  obtain rfl := Option.some.inj (hc.vx.symm.trans hd.vx)
  obtain rfl := Option.some.inj (hc.vy.symm.trans hd.vy)
  obtain rfl := Option.some.inj (hc.vz.symm.trans hd.vz)
  obtain rfl := Option.some.inj (hc.fx.symm.trans hd.fx)
  obtain rfl := Option.some.inj (hc.fy.symm.trans hd.fy)
  obtain rfl := Option.some.inj (hc.fz.symm.trans hd.fz)
  obtain rfl := Option.some.inj (hc.steps.symm.trans hd.steps)
  rfl

/-- The combination that is listed at an index is the one that the index selects. -/
theorem selects_of_getElem? {index : Nat} {c : Combination α}
    (h : a.combinations[index]? = some c) :
    a.Selects index c := by
  rw [combinations_eq, List.getElem?_map] at h
  obtain ⟨⟨⟨⟨⟨⟨⟨⟨⟨n, t⟩, vx⟩, vy⟩, vz⟩, fx⟩, fy⟩, fz⟩, k⟩, htuple, rfl⟩ :=
    Option.map_eq_some_iff.mp h
  -- One digit after the other is split off, the least significant one first.
  obtain ⟨htuple, hsteps⟩ := getElem?_of_product htuple
  obtain ⟨htuple, hfz⟩ := getElem?_of_product htuple
  obtain ⟨htuple, hfy⟩ := getElem?_of_product htuple
  obtain ⟨htuple, hfx⟩ := getElem?_of_product htuple
  obtain ⟨htuple, hvz⟩ := getElem?_of_product htuple
  obtain ⟨htuple, hvy⟩ := getElem?_of_product htuple
  obtain ⟨htuple, hvx⟩ := getElem?_of_product htuple
  obtain ⟨hatoms, htimestep⟩ := getElem?_of_product htuple
  refine ⟨hsteps, hfz, hfy, hfx, hvz, hvy, hvx, htimestep, ?_⟩
  rw [← Nat.mod_eq_of_lt (List.getElem?_eq_some_iff.mp hatoms).1] at hatoms
  exact hatoms

/-- Every index below the number of combinations has the combination that it selects. -/
theorem getElem?_combinations_iff {index : Nat} {c : Combination α} :
    a.combinations[index]? = some c ↔ index < a.size ∧ a.Selects index c := by
  rw [← a.length_combinations]
  constructor
  · intro h
    exact ⟨(List.getElem?_eq_some_iff.mp h).1, selects_of_getElem? h⟩
  · rintro ⟨hindex, hselects⟩
    have hlisted : a.combinations[index]? = some a.combinations[index] :=
      List.getElem?_eq_getElem hindex
    rw [hlisted, (selects_of_getElem? hlisted).unique hselects]

/-- An index selects a combination if it is below their number. -/
theorem exists_selects {index : Nat} (h : index < a.size) : ∃ c, a.Selects index c := by
  rw [← a.length_combinations] at h
  exact ⟨_, selects_of_getElem? (List.getElem?_eq_getElem h)⟩

/-- A digit is split off an index that has the values of an axis at it. -/
theorem digit?_eq_some_iff {β : Type} {values : List β} {index rest : Nat} {b : β} :
    digit? values index = some (b, rest) ↔
      values[index % values.length]? = some b ∧ index / values.length = rest := by
  simp [digit?]

/-- An index that selects a combination has a value at each of its digits. -/
theorem Selects.radices_pos {index : Nat} {c : Combination α} (h : a.Selects index c) :
    ∀ radix ∈ a.radices, 0 < radix := by
  have hpos {β : Type} {values : List β} {i : Nat} {b : β} (hb : values[i]? = some b) :
      0 < values.length := Nat.zero_lt_of_lt (List.getElem?_eq_some_iff.mp hb).1
  simp only [radices, List.forall_mem_cons, List.not_mem_nil, IsEmpty.forall_iff, implies_true,
    and_true]
  exact ⟨hpos h.steps, hpos h.fz, hpos h.fy, hpos h.fx, hpos h.vz, hpos h.vy, hpos h.vx,
    hpos h.timestep, hpos h.atoms⟩

/-- The digits find the combination that they select, if nothing is left of the index. -/
theorem select?_eq_some_iff {index : Nat} {c : Combination α} :
    a.select? index = some c ↔ a.Selects index c ∧ mixedFront a.radices index = 0 := by
  unfold select?
  simp only [Option.bind_eq_bind, Option.bind_eq_some_iff, Prod.exists, digit?_eq_some_iff,
    Option.ite_none_right_eq_some, Option.pure_def, Option.some.injEq]
  constructor
  · rintro ⟨k, _, ⟨hk, rfl⟩, fz, _, ⟨hfz, rfl⟩, fy, _, ⟨hfy, rfl⟩, fx, _, ⟨hfx, rfl⟩, vz, _,
      ⟨hvz, rfl⟩, vy, _, ⟨hvy, rfl⟩, vx, _, ⟨hvx, rfl⟩, t, _, ⟨ht, rfl⟩, n, _, ⟨hn, rfl⟩, hfront,
      rfl⟩
    exact ⟨⟨hk, hfz, hfy, hfx, hvz, hvy, hvx, ht, hn⟩, hfront⟩
  · rintro ⟨h, hfront⟩
    exact ⟨_, _, ⟨h.steps, rfl⟩, _, _, ⟨h.fz, rfl⟩, _, _, ⟨h.fy, rfl⟩, _, _, ⟨h.fx, rfl⟩, _, _,
      ⟨h.vz, rfl⟩, _, _, ⟨h.vy, rfl⟩, _, _, ⟨h.vx, rfl⟩, _, _, ⟨h.timestep, rfl⟩, _, _,
      ⟨h.atoms, rfl⟩, hfront, rfl⟩

/-- The combination that is found by its digits is the one that is listed. -/
theorem select?_eq_getElem? (a : Axes α) (index : Nat) :
    a.select? index = a.combinations[index]? := by
  ext c
  rw [select?_eq_some_iff, getElem?_combinations_iff, and_comm, size_eq_prod]
  exact and_congr_left fun h => mixedFront_eq_zero_iff h.radices_pos

end Axes

/-- For each parameter the values that are meant. -/
structure Choice (α : Type) where
  atoms : Number α → Bool
  timestep : Number α → Bool
  vx : α → Bool
  vy : α → Bool
  vz : α → Bool
  fx : α → Bool
  fy : α → Bool
  fz : α → Bool
  steps : Number α → Bool

namespace Choice

variable {α : Type}

/-- Whether all values of a combination are meant. -/
def holds (p : Choice α) (c : Combination α) : Bool :=
  p.atoms c.atoms && p.timestep c.timestep &&
    p.vx c.velocity.x && p.vy c.velocity.y && p.vz c.velocity.z &&
    p.fx c.force.x && p.fy c.force.y && p.fz c.force.z && p.steps c.steps

/-- How often the values that are meant occur in the axes, multiplied over the axes. -/
def multiplicity (p : Choice α) (a : Axes α) : Nat :=
  a.atoms.countP p.atoms * a.timesteps.countP p.timestep *
    a.vx.countP p.vx * a.vy.countP p.vy * a.vz.countP p.vz *
    a.fx.countP p.fx * a.fy.countP p.fy * a.fz.countP p.fz * a.steps.countP p.steps

/-- The combinations that are meant are counted by counting the values in each axis. -/
theorem countP_combinations (p : Choice α) (a : Axes α) :
    a.combinations.countP p.holds = p.multiplicity a := by
  rw [Axes.combinations_eq, List.countP_map, multiplicity]
  simp only [← countP_product]
  rfl

end Choice

namespace Combination

variable {α : Type} [Scalar α]

/-- A scenario has the values of its combination, and its counts are those that were given. -/
theorem fields_of_scenario {c : Combination α} {s : Scenario α} (h : c.scenario = .ok s) :
    c.atoms.atoms = .ok ⟨s.atoms, s.atoms_pos⟩ ∧
      c.timestep.timestep = .ok ⟨s.timestep, s.timestep_positive⟩ ∧
      c.velocity = s.velocity ∧ c.force = s.force ∧ c.steps.steps = .ok s.steps := by
  unfold scenario Scenario.make at h
  obtain ⟨⟨n, hn⟩, hatoms, h⟩ := bind_eq_ok_iff.mp h
  obtain ⟨⟨t, ht⟩, htimestep, h⟩ := bind_eq_ok_iff.mp h
  obtain ⟨k, hsteps, h⟩ := bind_eq_ok_iff.mp h
  obtain rfl := Except.ok.inj h
  exact ⟨hatoms, htimestep, rfl, rfl, hsteps⟩

/-- The scenarios that are formed of some combinations, and the fault that ends it: one scenario for
each combination in front of the first that has none. -/
structure Forms (cs : List (Combination α)) (formed : List (Scenario α))
    (fault? : Option (Fault α)) : Prop where
  scenario : ∀ (index : Nat) (s : Scenario α), formed[index]? = some s →
    ∃ c, cs[index]? = some c ∧ c.scenario = .ok s
  complete : fault? = none → formed.length = cs.length
  stopped : ∀ fault, fault? = some fault →
    ∃ c, cs[formed.length]? = some c ∧ c.scenario = .error fault

/-- Scenarios are formed up to the first combination that has none. -/
theorem forms_scenarios (cs : List (Combination α)) :
    Forms cs (scenarios cs).1 (scenarios cs).2 := by
  induction cs with
  | nil => exact ⟨by simp [scenarios], fun _ => rfl, by simp [scenarios]⟩
  | cons c rest ih =>
    unfold scenarios
    cases hc : c.scenario with
    | error fault =>
      refine ⟨by simp, by simp, fun other hother => ⟨c, rfl, ?_⟩⟩
      rw [hc, Option.some.inj hother]
    | ok s =>
      refine ⟨fun index t ht => ?_, fun hnone => congrArg (· + 1) (ih.complete hnone), ih.stopped⟩
      cases index with
      | zero =>
        obtain rfl := Option.some.inj ht
        exact ⟨c, rfl, hc⟩
      | succ index => exact ih.scenario index t ht

end Combination

/-- Scenarios all of whose parameters are the same, in a given sense for scalars. -/
structure Scenario.IsSame {α : Type} [Scalar α] (same : α → α → Prop) (s t : Scenario α) :
    Prop where
  atoms : s.atoms = t.atoms
  timestep : same s.timestep t.timestep
  vx : same s.velocity.x t.velocity.x
  vy : same s.velocity.y t.velocity.y
  vz : same s.velocity.z t.velocity.z
  fx : same s.force.x t.force.x
  fy : same s.force.y t.force.y
  fz : same s.force.z t.force.z
  steps : s.steps = t.steps

/-- A row that holds no value at two places, in a given sense of being the same value. -/
def IsDistinct {β : Type} (same : β → β → Prop) (values : List β) : Prop :=
  ∀ (p q : Nat) (x y : β), values[p]? = some x → values[q]? = some y → same x y → p = q

/-- Values are distinct if something that the same values have in common is. -/
theorem isDistinct_of_nodup {β γ : Type} {same : β → β → Prop} {f : β → γ} {values : List β}
    (h : (values.map f).Nodup) (hsame : ∀ x y, same x y → f x = f y) : IsDistinct same values := by
  intro p q x y hx hy hxy
  have hp : (values.map f)[p]? = some (f x) := by rw [List.getElem?_map, hx]; rfl
  have hq : (values.map f)[q]? = some (f x) := by rw [List.getElem?_map, hy, hsame x y hxy]; rfl
  exact (List.getElem?_inj (List.getElem?_eq_some_iff.mp hp).1 h).mp (hp.trans hq.symm)

/-- Axes none of which has a value twice. Counts are the same if they are accepted as the same whole
number, and timesteps if they are accepted as the same scalar. -/
structure Axes.IsDistinct {α : Type} [Scalar α] (same : α → α → Prop) (a : Axes α) : Prop where
  atoms : Leapfrog.IsDistinct (fun m n : Number α => ∃ k, m.atoms = .ok k ∧ n.atoms = .ok k) a.atoms
  timesteps : Leapfrog.IsDistinct
    (fun t u : Number α => ∃ x y, t.timestep = .ok x ∧ u.timestep = .ok y ∧ same x y) a.timesteps
  vx : Leapfrog.IsDistinct same a.vx
  vy : Leapfrog.IsDistinct same a.vy
  vz : Leapfrog.IsDistinct same a.vz
  fx : Leapfrog.IsDistinct same a.fx
  fy : Leapfrog.IsDistinct same a.fy
  fz : Leapfrog.IsDistinct same a.fz
  steps : Leapfrog.IsDistinct (fun m n : Number α => ∃ k, m.steps = .ok k ∧ n.steps = .ok k) a.steps

/-- Indices whose combinations are the same scenario are equal where no axis has a value twice. -/
theorem Axes.IsDistinct.eq_of_isSame {α : Type} [Scalar α] {same : α → α → Prop} {a : Axes α}
    (h : a.IsDistinct same) {i j : Nat} (hi : i < a.size) (hj : j < a.size)
    {c d : Combination α} (hc : a.Selects i c) (hd : a.Selects j d) {s t : Scenario α}
    (hs : c.scenario = .ok s) (ht : d.scenario = .ok t) (hsame : s.IsSame same t) : i = j := by
  obtain ⟨hatoms, htimestep, hvelocity, hforce, hsteps⟩ := Combination.fields_of_scenario hs
  obtain ⟨hatoms', htimestep', hvelocity', hforce', hsteps'⟩ := Combination.fields_of_scenario ht
  rw [a.size_eq_prod] at hi hj
  refine eq_of_mixedDigit hi hj fun place hplace => ?_
  have hnine : place < 9 := hplace
  interval_cases place
  · refine h.steps _ _ _ _ hc.steps hd.steps ⟨s.steps, hsteps, ?_⟩
    rw [hsteps', hsame.steps]
  · exact h.fz _ _ _ _ hc.fz hd.fz (by rw [hforce, hforce']; exact hsame.fz)
  · exact h.fy _ _ _ _ hc.fy hd.fy (by rw [hforce, hforce']; exact hsame.fy)
  · exact h.fx _ _ _ _ hc.fx hd.fx (by rw [hforce, hforce']; exact hsame.fx)
  · exact h.vz _ _ _ _ hc.vz hd.vz (by rw [hvelocity, hvelocity']; exact hsame.vz)
  · exact h.vy _ _ _ _ hc.vy hd.vy (by rw [hvelocity, hvelocity']; exact hsame.vy)
  · exact h.vx _ _ _ _ hc.vx hd.vx (by rw [hvelocity, hvelocity']; exact hsame.vx)
  · exact h.timesteps _ _ _ _ hc.timestep hd.timestep
      ⟨_, _, htimestep, htimestep', hsame.timestep⟩
  · refine h.atoms _ _ _ _ hc.atoms hd.atoms ⟨_, hatoms, ?_⟩
    rw [hatoms']
    exact congrArg Except.ok (Subtype.ext hsame.atoms.symm)

namespace Grid

variable {α : Type} [Scalar α]

/-- What is yielded when a grid is enumerated, and the fault that ends it. Every scenario is that of
the combination which its index selects; an enumeration without a fault has come to all
combinations, and one with a fault has come to a combination that is no scenario. -/
structure Yields (g : Grid α) (yielded : List (Scenario α)) (fault? : Option (Fault α)) : Prop where
  scenario : ∀ (index : Nat) (s : Scenario α), yielded[index]? = some s →
    ∃ c, g.Selects index c ∧ c.scenario = .ok s
  complete : fault? = none → yielded.length = g.size
  stopped : ∀ fault, fault? = some fault → yielded.length < g.size ∧
    ∃ c, g.Selects yielded.length c ∧ c.scenario = .error fault

/-- A grid yields its scenarios up to the first combination that is none. -/
theorem yields_scenarios (g : Grid α) : g.Yields g.scenarios.1 g.scenarios.2 := by
  have hforms := Combination.forms_scenarios g.combinations
  constructor
  · intro index s hs
    obtain ⟨c, hc, hscenario⟩ := hforms.scenario index s hs
    exact ⟨c, Axes.selects_of_getElem? hc, hscenario⟩
  · intro hnone
    rw [← g.length_combinations]
    exact hforms.complete hnone
  · intro fault hfault
    obtain ⟨c, hc, hscenario⟩ := hforms.stopped fault hfault
    obtain ⟨hlt, hselects⟩ := Axes.getElem?_combinations_iff.mp hc
    exact ⟨hlt, c, hselects, hscenario⟩

/-- The scenarios that are formed by their digits are those of the listed combinations. -/
theorem form_eq (g : Grid α) (count index : Nat) (earlier : List (Scenario α)) :
    g.form count index earlier =
      match Combination.scenarios ((g.combinations.drop index).take count) with
      | (formed, none) => .ok (earlier.reverse ++ formed)
      | (_, some fault) => .error fault := by
  induction count generalizing index earlier with
  | zero => simp [form, Combination.scenarios]
  | succ count ih =>
    unfold form
    rw [Axes.select?_eq_getElem?]
    cases hc : g.combinations[index]? with
    | none =>
      rw [List.drop_eq_nil_of_le (List.getElem?_eq_none_iff.mp hc)]
      simp [Combination.scenarios]
    | some c =>
      obtain ⟨hlt, rfl⟩ := List.getElem?_eq_some_iff.mp hc
      rw [List.drop_eq_getElem_cons hlt, List.take_succ_cons, Combination.scenarios]
      dsimp only
      cases g.combinations[index].scenario with
      | error fault => rfl
      | ok s =>
        dsimp only
        rw [ih]
        cases Combination.scenarios ((g.combinations.drop (index + 1)).take count) with
        | mk formed fault? => cases fault? <;> simp

end Grid

/-- A grid is the count of its axes in mixed radix.

Its length is the product of the lengths of the axes. Each index below it selects one combination by
its digits, and the combinations are listed, found and enumerated in this order, up to the first
that is no scenario. How often values occur together is the product of how often each of them occurs
in its axis, whatever values are meant. Scenarios at different indices differ where no axis has a
value twice, whatever it means that two scalars are the same. -/
theorem grid_counts_in_mixed_radix {α : Type} [Scalar α] (g : Grid α)
    (hsize : g.size < Limits.bound) :
    (g.length = .ok g.size ∧
      g.size = g.atoms.length * g.timesteps.length * g.vx.length * g.vy.length * g.vz.length *
        g.fx.length * g.fy.length * g.fz.length * g.steps.length) ∧
    (∀ index < g.size, ∃ c, g.Selects index c) ∧
    (∀ index c, g.combinations[index]? = some c ↔ index < g.size ∧ g.Selects index c) ∧
    (∀ index, g.select? index = g.combinations[index]?) ∧
    g.Yields g.scenarios.1 g.scenarios.2 ∧
    (∀ count, g.form count 0 [] =
      match Combination.scenarios (g.combinations.take count) with
      | (formed, none) => .ok formed
      | (_, some fault) => .error fault) ∧
    (∀ p : Choice α, g.combinations.countP p.holds = p.multiplicity g.toAxes) ∧
    ∀ same : α → α → Prop, g.IsDistinct same → ∀ (i j : Nat) (s t : Scenario α),
      g.scenarios.1[i]? = some s → g.scenarios.1[j]? = some t → s.IsSame same t → i = j := by
  have hyields := g.yields_scenarios
  have hlt {k : Nat} {s : Scenario α} (hs : g.scenarios.1[k]? = some s) : k < g.size := by
    have hk := (List.getElem?_eq_some_iff.mp hs).1
    cases hfault : g.scenarios.2 with
    | none => exact hyields.complete hfault ▸ hk
    | some fault => exact hk.trans (hyields.stopped fault hfault).1
  refine ⟨⟨if_pos hsize, by simp [Axes.size, Axes.lengths]⟩, fun _ => Axes.exists_selects,
    fun _ _ => Axes.getElem?_combinations_iff, g.select?_eq_getElem?, hyields,
    fun count => g.form_eq count 0 [], fun p => p.countP_combinations g.toAxes, ?_⟩
  intro same hdistinct i j s t hs ht hsame
  obtain ⟨c, hc, hscenario⟩ := hyields.scenario i s hs
  obtain ⟨d, hd, hscenario'⟩ := hyields.scenario j t ht
  exact hdistinct.eq_of_isSame (hlt hs) (hlt ht) hc hd hscenario hscenario' hsame

/-- Axes of different lengths, the fastest of which ends with a value that is no number of steps. -/
def Grid.uneven : Grid Float where
  atoms := [.whole 1, .scalar 2]
  timesteps := [.scalar 0.5]
  vx := [1, 0]
  vy := [0]
  vz := [0]
  fx := [2]
  fy := [0]
  fz := [-1]
  steps := [.whole 0, .scalar 2, .scalar 2.5]
  nonempty := by decide

/-- No axis of the uneven grid has a value twice. -/
theorem Grid.isDistinct_uneven : uneven.IsDistinct Eq where
  atoms := isDistinct_of_nodup (f := fun n => n.atoms.toOption) (by decide +kernel) fun m n h => by
    obtain ⟨k, hm, hn⟩ := h
    rw [hm, hn]
  timesteps := isDistinct_of_nodup (f := fun t => t.timestep.toOption) (by decide +kernel)
    fun t u h => by
      obtain ⟨x, y, ht, hu, hsame⟩ := h
      rw [ht, hu, Subtype.ext hsame]
  vx := isDistinct_of_nodup (f := id) (by decide +kernel) fun _ _ h => h
  vy := isDistinct_of_nodup (f := id) (by decide) fun _ _ h => h
  vz := isDistinct_of_nodup (f := id) (by decide) fun _ _ h => h
  fx := isDistinct_of_nodup (f := id) (by decide) fun _ _ h => h
  fy := isDistinct_of_nodup (f := id) (by decide) fun _ _ h => h
  fz := isDistinct_of_nodup (f := id) (by decide) fun _ _ h => h
  steps := isDistinct_of_nodup (f := fun n => n.steps.toOption) (by decide +kernel) fun m n h => by
    obtain ⟨k, hm, hn⟩ := h
    rw [hm, hn]

/-- The uneven grid has twelve combinations. At index seven stand the second value of the fastest
axis and the second number of atoms. Two scenarios are yielded, and they differ; the combination at
index two is none. -/
theorem grid_counts_in_mixed_radix_uneven :
    Grid.uneven.size < Limits.bound ∧ Grid.uneven.length = .ok 12 ∧
      (∃ c, Grid.uneven.select? 7 = some c ∧ c.steps = .scalar 2 ∧ c.velocity = ⟨1, 0, 0⟩ ∧
        c.atoms = .scalar 2) ∧
      ∃ s t, Grid.uneven.scenarios = ([s, t], some (.stepCount (.scalar 2.5))) ∧ s ≠ t ∧
        ∃ c, Grid.uneven.Selects 2 c ∧ c.scenario = .error (.stepCount (.scalar 2.5)) := by
  have hsize : Grid.uneven.size < Limits.bound := by decide
  have hseven : 7 < Grid.uneven.size := by decide
  have hfault : Grid.uneven.scenarios.2 = some (.stepCount (.scalar 2.5)) := by decide +kernel
  have htwo : Grid.uneven.scenarios.1.length = 2 := by decide +kernel
  obtain ⟨s, t, hyielded⟩ := List.length_eq_two.mp htwo
  obtain ⟨⟨hlength, -⟩, hselects, hlisted, hselect, hyields, -, -, hdistinct⟩ :=
    grid_counts_in_mixed_radix Grid.uneven hsize
  obtain ⟨c, hc⟩ := hselects 7 hseven
  refine ⟨hsize, hlength, ⟨c, ?_, ?_, ?_, ?_⟩, s, t, Prod.ext hyielded hfault, ?_, ?_⟩
  · rw [hselect, hlisted]
    exact ⟨hseven, hc⟩
  · exact (Option.some.inj hc.steps).symm
  · exact Vec3.ext_get fun axis => by
      cases axis
      · exact (Option.some.inj hc.vx).symm
      · exact (Option.some.inj hc.vy).symm
      · exact (Option.some.inj hc.vz).symm
  · exact (Option.some.inj hc.atoms).symm
  · rintro rfl
    have hsame : s.IsSame Eq s := ⟨rfl, rfl, rfl, rfl, rfl, rfl, rfl, rfl, rfl⟩
    have hplaces := hdistinct Eq Grid.isDistinct_uneven 0 1 s s (by rw [hyielded]; rfl)
      (by rw [hyielded]; rfl) hsame
    exact absurd hplaces (by decide)
  · obtain ⟨-, d, hd, hscenario⟩ := hyields.stopped _ hfault
    rw [htwo] at hd
    exact ⟨d, hd, hscenario⟩

end Leapfrog
