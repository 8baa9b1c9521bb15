import Mathlib.Data.List.Forall2
import Mathlib.Data.List.Nodup
import Mathlib.Data.List.Perm.Basic
import Mathlib.Data.List.ProdSigma

/-!
# Traversals

A traversal that may fail succeeds exactly if every one of its steps does, and then its answers
stand in the order of what was traversed. A traversal that changes the entries of an array one after
the other changes each of them on its own, so that its order does not matter.
-/

namespace Leapfrog

section

variable {ε β γ σ : Type}

/-- Two computations in a row succeed exactly if the first one does and the second one does with its
answer. -/
theorem bind_eq_ok_iff {first : Except ε β} {next : β → Except ε γ} {c : γ} :
    (first >>= next) = .ok c ↔ ∃ b, first = .ok b ∧ next b = .ok c := by
  cases first with
  | error fault => simp [bind, Except.bind]
  | ok b => simp [bind, Except.bind]

/-- Two computations in a row fail if the first one does, or the second one with its answer. -/
theorem bind_eq_error_iff {first : Except ε β} {next : β → Except ε γ} {e : ε} :
    (first >>= next) = .error e ↔ first = .error e ∨ ∃ b, first = .ok b ∧ next b = .error e := by
  cases first with
  | error fault => simp [bind, Except.bind]
  | ok b => simp [bind, Except.bind]

/-- A computation that is seen to succeed has an answer. -/
theorem exists_ok_of_toBool {result : Except ε β} (h : result.toBool = true) :
    ∃ b, result = .ok b := by
  cases result with
  | error fault => cases h
  | ok b => exact ⟨b, rfl⟩

/-- A result that turns out to be of a certain kind is there. -/
theorem exists_ok_of_any {p : β → Prop} [DecidablePred p] {result : Except ε β}
    (h : result.toOption.any (fun b => decide (p b)) = true) : ∃ b, result = .ok b ∧ p b := by
  cases result with
  | error fault => cases h
  | ok b => exact ⟨b, rfl, of_decide_eq_true h⟩

/-- Every entry has its answer at its own position. -/
theorem exists_answer {answers : β → γ → Prop} {values : List β} {given : List γ}
    (h : List.Forall₂ answers values given) {i : Nat} {b : β} (hb : values[i]? = some b) :
    ∃ c, given[i]? = some c ∧ answers b c := by
  induction h generalizing i with
  | nil => cases hb
  | @cons b' c' _ _ hfirst _ ih =>
    cases i with
    | zero =>
      obtain rfl := Option.some.inj hb
      exact ⟨c', rfl, hfirst⟩
    | succ i => exact ih hb

/-- Every entry has an answer among those given. -/
theorem exists_answer_mem {answers : β → γ → Prop} {values : List β} {given : List γ}
    (h : List.Forall₂ answers values given) {b : β} (hb : b ∈ values) :
    ∃ c ∈ given, answers b c := by
  obtain ⟨i, hi⟩ := List.mem_iff_getElem?.mp hb
  obtain ⟨c, hc, hanswer⟩ := exists_answer h hi
  exact ⟨c, List.mem_of_getElem? hc, hanswer⟩

/-- What can be said of the entries can be said of their answers. -/
theorem forall_mem_iff_of_forall₂ {answers : β → γ → Prop} {values : List β} {given : List γ}
    {p : β → Prop} {q : γ → Prop} (h : List.Forall₂ answers values given)
    (hiff : ∀ b c, answers b c → (p b ↔ q c)) : (∀ b ∈ values, p b) ↔ ∀ c ∈ given, q c := by
  induction h with
  | nil => simp
  | cons hfirst _ ih =>
    rw [List.forall_mem_cons, List.forall_mem_cons, ih, hiff _ _ hfirst]

/-- There are answers for all entries exactly if there is one for every single entry. -/
theorem exists_answers_iff {answers : β → γ → Prop} {values : List β} :
    (∃ given, List.Forall₂ answers values given) ↔ ∀ b ∈ values, ∃ c, answers b c := by
  induction values with
  | nil => exact ⟨fun _ _ h => absurd h List.not_mem_nil, fun _ => ⟨[], .nil⟩⟩
  | cons b rest ih =>
    simp only [List.forall₂_cons_left_iff, List.forall_mem_cons, ← ih]
    constructor
    · intro h
      obtain ⟨_, c, cs, hc, hcs, -⟩ := h
      exact ⟨⟨c, hc⟩, cs, hcs⟩
    · intro h
      obtain ⟨⟨c, hc⟩, cs, hcs⟩ := h
      exact ⟨c :: cs, c, cs, hc, hcs, rfl⟩

/-- The answers of a successful traversal, in order. -/
theorem mapM_eq_ok_iff {run : β → Except ε γ} {values : List β} {answers : List γ} :
    values.mapM run = .ok answers ↔ List.Forall₂ (fun b c => run b = .ok c) values answers := by
  induction values generalizing answers with
  | nil =>
    rw [List.mapM_nil, List.forall₂_nil_left_iff]
    exact ⟨fun h => (Except.ok.inj h).symm, fun h => h ▸ rfl⟩
  | cons b rest ih =>
    rw [List.mapM_cons, bind_eq_ok_iff, List.forall₂_cons_left_iff]
    constructor
    · intro h
      obtain ⟨c, hc, h⟩ := h
      obtain ⟨cs, hcs, h⟩ := bind_eq_ok_iff.mp h
      exact ⟨c, cs, hc, ih.mp hcs, (Except.ok.inj h).symm⟩
    · intro h
      obtain ⟨c, cs, hc, hcs, rfl⟩ := h
      exact ⟨c, hc, bind_eq_ok_iff.mpr ⟨cs, ih.mpr hcs, rfl⟩⟩

/-- A traversal that stops is stopped by one of its entries. -/
theorem exists_of_mapM_eq_error {run : β → Except ε γ} {values : List β} {e : ε}
    (h : values.mapM run = .error e) : ∃ b ∈ values, run b = .error e := by
  induction values with
  | nil =>
    rw [List.mapM_nil] at h
    cases h
  | cons b rest ih =>
    rw [List.mapM_cons] at h
    rcases bind_eq_error_iff.mp h with hfirst | ⟨_, -, h⟩
    · exact ⟨b, List.mem_cons_self, hfirst⟩
    · rcases bind_eq_error_iff.mp h with hrest | ⟨_, -, h⟩
      · obtain ⟨b', hb', hrun⟩ := ih hrest
        exact ⟨b', List.mem_cons_of_mem _ hb', hrun⟩
      · cases h

/-- A fold that records an answer at every step. -/
theorem foldlM_eq_ok_iff (visit : σ → β → Except ε σ) {answers : β → γ → Prop} {record : σ → γ → σ}
    (hvisit : ∀ s b s', visit s b = .ok s' ↔ ∃ c, answers b c ∧ s' = record s c)
    {values : List β} {s s' : σ} :
    values.foldlM visit s = .ok s' ↔
      ∃ given, List.Forall₂ answers values given ∧ s' = given.foldl record s := by
  induction values generalizing s with
  | nil =>
    rw [List.foldlM_nil]
    constructor
    · intro h
      exact ⟨[], .nil, (Except.ok.inj h).symm⟩
    · intro h
      obtain ⟨given, hgiven, rfl⟩ := h
      rw [List.forall₂_nil_left_iff.mp hgiven]
      rfl
  | cons b rest ih =>
    rw [List.foldlM_cons, bind_eq_ok_iff]
    constructor
    · intro h
      obtain ⟨next, hnext, h⟩ := h
      obtain ⟨c, hc, rfl⟩ := (hvisit s b next).mp hnext
      obtain ⟨cs, hcs, rfl⟩ := ih.mp h
      exact ⟨c :: cs, .cons hc hcs, rfl⟩
    · intro h
      obtain ⟨given, hgiven, rfl⟩ := h
      obtain ⟨c, cs, hc, hcs, rfl⟩ := List.forall₂_cons_left_iff.mp hgiven
      exact ⟨record s c, (hvisit s b _).mpr ⟨c, hc, rfl⟩, ih.mpr ⟨cs, hcs, rfl⟩⟩

/-- A fold that stops is stopped by one of its entries. -/
theorem exists_of_foldlM_eq_error {visit : σ → β → Except ε σ} {values : List β} {s : σ} {e : ε}
    (h : values.foldlM visit s = .error e) : ∃ b ∈ values, ∃ s', visit s' b = .error e := by
  induction values generalizing s with
  | nil => cases h
  | cons b rest ih =>
    rw [List.foldlM_cons] at h
    rcases bind_eq_error_iff.mp h with hfirst | ⟨next, -, hrest⟩
    · exact ⟨b, List.mem_cons_self, s, hfirst⟩
    · obtain ⟨c, hc, s', hs'⟩ := ih hrest
      exact ⟨c, List.mem_cons_of_mem _ hc, s', hs'⟩

/-- The positions of entries can be carried along. -/
theorem flatMap_eq_zipIdx (values : List β) (f : β → List γ) :
    values.flatMap f = values.zipIdx.flatMap fun entry => f entry.1 := by
  conv_lhs => rw [← List.zipIdx_map_fst 0 values]
  rw [List.flatMap_map]

/-- Lists that belong together entry by entry, put one after the other. -/
theorem forall₂_flatMap {R : γ → σ → Prop} {values : List β} {f : β → List γ} {g : β → List σ}
    (h : ∀ b ∈ values, List.Forall₂ R (f b) (g b)) :
    List.Forall₂ R (values.flatMap f) (values.flatMap g) := by
  induction values with
  | nil => exact .nil
  | cons b rest ih =>
    rw [List.flatMap_cons, List.flatMap_cons]
    exact List.rel_append (h b List.mem_cons_self) (ih fun c hc => h c (List.mem_cons_of_mem _ hc))

/-- Where nothing occurs twice there is nothing to erase. -/
theorem eraseDups_of_nodup [DecidableEq β] {values : List β} (h : values.Nodup) :
    values.eraseDups = values := by
  induction values with
  | nil => rfl
  | cons b rest ih =>
    obtain ⟨hb, hrest⟩ := List.nodup_cons.mp h
    have hfilter : (rest.filter fun c => !c == b) = rest := by
      rw [List.filter_eq_self]
      intro c hc
      have hne : c ≠ b := fun heq => hb (heq ▸ hc)
      simp [hne]
    rw [List.eraseDups_cons, hfilter, ih hrest]

/-- What comes first among the entries that are kept comes first among all of them. -/
theorem idxOf_lt_of_filter [DecidableEq β] {p : β → Bool} {values : List β} {a b : β} (ha : p a = true)
    (hb : p b = true) (h : (values.filter p).idxOf a < (values.filter p).idxOf b) :
    values.idxOf a < values.idxOf b := by
  induction values with
  | nil => exact h
  | cons c rest ih =>
    by_cases hc : p c = true
    · rw [List.filter_cons_of_pos hc] at h
      by_cases hca : c = a
      · subst hca
        by_cases hcb : c = b
        · subst hcb
          exact absurd h (Nat.lt_irrefl _)
        · rw [List.idxOf_cons_self, List.idxOf_cons_ne _ hcb]
          exact Nat.succ_pos _
      · by_cases hcb : c = b
        · subst hcb
          rw [List.idxOf_cons_self] at h
          exact absurd h (Nat.not_lt_zero _)
        · rw [List.idxOf_cons_ne _ hca, List.idxOf_cons_ne _ hcb, Nat.succ_lt_succ_iff] at h ⊢
          exact ih h
    · rw [List.filter_cons_of_neg hc] at h
      have hca : c ≠ a := fun heq => hc (heq ▸ ha)
      have hcb : c ≠ b := fun heq => hc (heq ▸ hb)
      rw [List.idxOf_cons_ne _ hca, List.idxOf_cons_ne _ hcb]
      exact Nat.succ_lt_succ (ih h)

/-- Without repetitions, entries stand in the order of their first appearance. -/
theorem pairwise_idxOf_eraseDups [DecidableEq β] (values : List β) :
    values.eraseDups.Pairwise fun a b => values.idxOf a < values.idxOf b := by
  -- What is left after the first entry is filtered, so the induction is on the length.
  induction hn : values.length using Nat.strongRecOn generalizing values with
  | _ n ih =>
    cases values with
    | nil => exact .nil
    | cons c rest =>
      rw [List.eraseDups_cons, List.pairwise_cons]
      have hne {a : β} (ha : a ∈ (rest.filter fun b => !b == c).eraseDups) :
          c ≠ a ∧ (!a == c) = true := by
        have hkept := (List.mem_filter.mp (List.mem_eraseDups.mp ha)).2
        exact ⟨fun heq => by simp [heq] at hkept, hkept⟩
      constructor
      · intro a ha
        rw [List.idxOf_cons_self, List.idxOf_cons_ne _ (hne ha).1]
        exact Nat.succ_pos _
      · have hshort : (rest.filter fun b => !b == c).length < n := by
          rw [← hn]
          exact Nat.lt_succ_of_le (List.length_filter_le _ _)
        refine (ih _ hshort _ rfl).imp_of_mem fun {a b} ha hb hlt => ?_
        rw [List.idxOf_cons_ne _ (hne ha).1, List.idxOf_cons_ne _ (hne hb).1]
        exact Nat.succ_lt_succ (idxOf_lt_of_filter (hne ha).2 (hne hb).2 hlt)

/-- Without repetitions, nothing occurs twice. -/
theorem nodup_eraseDups [DecidableEq β] (values : List β) : values.eraseDups.Nodup :=
  (pairwise_idxOf_eraseDups values).imp fun hlt heq => absurd (heq ▸ hlt) (Nat.lt_irrefl _)

/-- Blocks that repeat the first one leave the first one. -/
theorem eraseDups_flatMap_const [DecidableEq γ] {block : List γ} (hblock : block.Nodup)
    {values : List β} (hvalues : values ≠ []) :
    (values.flatMap fun _ => block).eraseDups = block := by
  obtain ⟨b, rest, rfl⟩ := List.exists_cons_of_ne_nil hvalues
  have hrest : (rest.flatMap fun _ => block).removeAll block = [] := by
    rw [List.removeAll, List.filter_eq_nil_iff]
    intro c hc
    obtain ⟨_, -, hc⟩ := List.mem_flatMap.mp hc
    simp [hc]
  rw [List.flatMap_cons, List.eraseDups_append, hrest, eraseDups_of_nodup hblock]
  simp

/-- The entries of a list with their positions are listed by position. -/
theorem pairwise_zipIdx (values : List β) :
    values.zipIdx.Pairwise fun first second => first.2 < second.2 := by
  rw [← List.pairwise_map, List.zipIdx_map_snd]
  exact List.pairwise_lt_range'

/-- The pairs of two lists, block by block. -/
theorem product_eq_flatMap (firsts : List β) (seconds : List γ) :
    firsts ×ˢ seconds = firsts.flatMap fun b => seconds.map fun c => (b, c) := rfl

/-- The pair at a position of the product, the second list varying fastest. -/
theorem getElem?_product (firsts : List β) (seconds : List γ) (p : Nat) :
    (firsts ×ˢ seconds)[p]? =
      (firsts[p / seconds.length]?).bind fun b =>
        (seconds[p % seconds.length]?).map fun c => (b, c) := by
  induction firsts generalizing p with
  | nil => simp
  | cons b rest ih =>
    rw [List.product_cons, List.getElem?_append, List.length_map]
    by_cases hp : p < seconds.length
    · simp [hp, Nat.div_eq_of_lt hp, Nat.mod_eq_of_lt hp]
    · rw [if_neg hp, ih]
      rcases Nat.eq_zero_or_pos seconds.length with hzero | hpos
      · simp [List.length_eq_zero_iff.mp hzero]
      · have hle : seconds.length ≤ p := Nat.le_of_not_lt hp
        rw [Nat.div_eq_sub_div hpos hle, Nat.mod_eq_sub_mod hle, List.getElem?_cons_succ]

/-- A pair of two lists stands at the position that has the positions of the two as its digits. -/
theorem getElem?_product_of_getElem? {firsts : List β} {seconds : List γ} {k j : Nat} {b : β} {c : γ}
    (hk : firsts[k]? = some b) (hj : seconds[j]? = some c) :
    (firsts ×ˢ seconds)[k * seconds.length + j]? = some (b, c) ∧
      (k * seconds.length + j) / seconds.length = k ∧
      (k * seconds.length + j) % seconds.length = j := by
  have hlt : j < seconds.length := (List.getElem?_eq_some_iff.mp hj).1
  have hdiv : (k * seconds.length + j) / seconds.length = k := by
    rw [Nat.mul_comm, Nat.mul_add_div (by omega), Nat.div_eq_of_lt hlt, Nat.add_zero]
  have hmod : (k * seconds.length + j) % seconds.length = j := Nat.mul_add_mod_of_lt hlt
  refine ⟨?_, hdiv, hmod⟩
  rw [getElem?_product, hdiv, hmod, hk, hj]
  rfl

/-- A pair at a position has its two entries at the digits of the position. -/
theorem getElem?_of_product {firsts : List β} {seconds : List γ} {p : Nat} {pair : β × γ}
    (h : (firsts ×ˢ seconds)[p]? = some pair) :
    firsts[p / seconds.length]? = some pair.1 ∧ seconds[p % seconds.length]? = some pair.2 := by
  rw [getElem?_product] at h
  obtain ⟨b, hb, h⟩ := Option.bind_eq_some_iff.mp h
  obtain ⟨c, hc, rfl⟩ := Option.map_eq_some_iff.mp h
  exact ⟨hb, hc⟩

end

section

variable {β γ : Type}

/-- Entries changed one after the other are changed each on its own, as long as none is changed
twice. -/
theorem getElem?_foldl_modify (change : Nat → β → β) (order : List Nat) (hnodup : order.Nodup)
    (values : Array β) (i : Nat) :
    (order.foldl (fun values k => values.modify k (change k)) values)[i]? =
      if i ∈ order then values[i]?.map (change i) else values[i]? := by
  induction order generalizing values with
  | nil => simp
  | cons first rest ih =>
    obtain ⟨hfirst, hrest⟩ := List.nodup_cons.mp hnodup
    rw [List.foldl_cons, ih hrest, Array.getElem?_modify]
    by_cases hi : i = first
    · subst hi
      simp [hfirst]
    · have hne : first ≠ i := fun h => hi h.symm
      simp [hi, hne]

/-- Every entry changed once, in any order. -/
theorem foldl_modify_of_perm (change : Nat → β → β) (values : Array β) (order : List Nat)
    (hperm : order.Perm (List.range values.size)) :
    order.foldl (fun values k => values.modify k (change k)) values = values.mapIdx change := by
  apply Array.ext_getElem?
  intro i
  rw [getElem?_foldl_modify change order (hperm.nodup_iff.mpr List.nodup_range),
    Array.getElem?_mapIdx]
  by_cases hi : i < values.size
  · rw [if_pos (hperm.mem_iff.mpr (List.mem_range.mpr hi))]
  · simp [hi]

/-- An entry that is changed into itself. -/
theorem modify_id (values : Array β) (i : Nat) : values.modify i id = values := by
  apply Array.ext_getElem?
  intro k
  simp [Array.getElem?_modify]

/-- A change of one entry seen through a view of all entries. -/
theorem map_modify_of_eq {view : β → γ} {change : β → β} {seen : γ → γ} {values : Array β} {i : Nat}
    (h : ∀ b, values[i]? = some b → view (change b) = seen (view b)) :
    (values.modify i change).map view = (values.map view).modify i seen := by
  apply Array.ext_getElem?
  intro k
  simp only [Array.getElem?_map, Array.getElem?_modify]
  by_cases hk : i = k
  · subst hk
    cases hb : values[i]? with
    | none => simp
    | some b => simp [h b hb]
  · simp [hk]

end

end Leapfrog
