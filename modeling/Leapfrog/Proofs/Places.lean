import Leapfrog.Proofs.Comparison
import Mathlib.Algebra.BigOperators.Ring.Finset

/-!
# Places in a run

A run goes through the pairs of a scenario and a backend, and every pair has its components. The
place of a component in a run says for which scenario, on which backend, of which quantity, atom and
axis it is; places are ordered in this way. Components that are listed pair by pair are listed in
the order of their places.
-/

namespace Leapfrog

/-- Where a component stands in a run. -/
structure Place where
  scenario : Nat
  backend : Nat
  quantity : Quantity
  atom : Nat
  axis : Axis
  deriving DecidableEq

namespace Place

/-- The numbers by which places are ordered, the first one that differs deciding. -/
def key (place : Place) : List Nat :=
  [place.scenario, place.backend, place.quantity.index, place.atom, place.axis.index]

instance : LT Place := ⟨fun place other => place.key < other.key⟩

/-- The place of a component of a pair. -/
def ofComponent {α : Type} (scenario backend : Nat) (c : Component α) : Place :=
  ⟨scenario, backend, c.quantity, c.atom, c.axis⟩

/-- Within a pair, places are ordered as components are. -/
theorem ofComponent_lt {α : Type} (scenario backend : Nat) {c d : Component α}
    (h : c.key < d.key) : ofComponent scenario backend c < ofComponent scenario backend d := by
  change scenario :: backend :: c.key < scenario :: backend :: d.key
  simp [h]

/-- Components of different pairs are ordered as the pairs are. -/
theorem ofComponent_lt_of_pair {α : Type} {width p q : Nat} (hpq : p < q) (c d : Component α) :
    ofComponent (p / width) (p % width) c < ofComponent (q / width) (q % width) d := by
  have hdigits : p / width < q / width ∨ p / width = q / width ∧ p % width < q % width := by
    rcases Nat.lt_or_eq_of_le (Nat.div_le_div_right (Nat.le_of_lt hpq) : p / width ≤ q / width) with hlt | heq
    · exact .inl hlt
    · have hp := Nat.div_add_mod p width
      have hq := Nat.div_add_mod q width
      rw [heq] at hp
      exact .inr ⟨heq, by omega⟩
  change p / width :: p % width :: c.key < q / width :: q % width :: d.key
  rw [List.cons_lt_cons_iff, List.cons_lt_cons_iff]
  rcases hdigits with hlt | ⟨heq, hlt⟩
  · exact .inl hlt
  · exact .inr ⟨heq, .inl hlt⟩

/-- The places of components that are given pair by pair, `width` pairs for each scenario. -/
def ofBlocks {α : Type} (width : Nat) (blocks : List (List (Component α))) : List Place :=
  blocks.zipIdx.flatMap fun (block, p) => block.map (ofComponent (p / width) (p % width))

variable {α : Type} {width : Nat} {blocks : List (List (Component α))}

/-- The places of the components are those that are listed. -/
theorem mem_ofBlocks {place : Place} :
    place ∈ ofBlocks width blocks ↔
      ∃ p block c, blocks[p]? = some block ∧ c ∈ block ∧
        ofComponent (p / width) (p % width) c = place := by
  unfold ofBlocks
  rw [List.mem_flatMap]
  constructor
  · intro h
    obtain ⟨⟨block, p⟩, hblock, hplace⟩ := h
    obtain ⟨c, hc, rfl⟩ := List.mem_map.mp hplace
    exact ⟨p, block, c, List.mk_mem_zipIdx_iff_getElem?.mp hblock, hc, rfl⟩
  · intro h
    obtain ⟨p, block, c, hblock, hc, rfl⟩ := h
    exact ⟨(block, p), List.mk_mem_zipIdx_iff_getElem?.mpr hblock, List.mem_map.mpr ⟨c, hc, rfl⟩⟩

/-- There are as many places as components. -/
theorem length_ofBlocks : (ofBlocks width blocks).length = (blocks.map List.length).sum := by
  unfold ofBlocks
  rw [List.length_flatMap]
  have hlength : (blocks.zipIdx.map fun (block, p) =>
      (block.map (ofComponent (p / width) (p % width))).length) =
      (blocks.zipIdx.map Prod.fst).map List.length := by
    rw [List.map_map]
    exact List.map_congr_left fun _ _ => List.length_map _
  rw [hlength, List.zipIdx_map_fst]

/-- Places are listed in strictly increasing order if the components of each pair are. -/
theorem pairwise_ofBlocks (h : ∀ block ∈ blocks, block.Pairwise fun c d => c.key < d.key) :
    (ofBlocks width blocks).Pairwise (· < ·) := by
  unfold ofBlocks
  rw [List.pairwise_flatMap]
  constructor
  · intro entry hentry
    rw [List.pairwise_map]
    exact (h entry.1 (List.fst_mem_of_mem_zipIdx hentry)).imp fun hkey => ofComponent_lt _ _ hkey
  · refine (pairwise_zipIdx blocks).imp fun {first second} hpq place hplace other hother => ?_
    obtain ⟨c, -, rfl⟩ := List.mem_map.mp hplace
    obtain ⟨d, -, rfl⟩ := List.mem_map.mp hother
    exact ofComponent_lt_of_pair hpq c d

end Place

end Leapfrog
