/-
How often a function on a finite type takes a value, and what becomes of the
count when the function is changed at one place.
-/

import Mathlib

namespace Tair.Library

variable {ι α : Type} [Fintype ι] [DecidableEq α]

def tally (value : ι → α) (target : α) : Nat :=
  (Finset.univ.filter (fun index => value index = target)).card

namespace Tally

theorem tally_eq_sum (value : ι → α) (target : α) :
    tally value target = ∑ index, if value index = target then 1 else 0 := by
  unfold tally
  rw [Finset.card_filter]

theorem tally_pos {value : ι → α} {target : α} :
    0 < tally value target ↔ ∃ index, value index = target := by
  unfold tally
  rw [Finset.card_pos]
  constructor
  · rintro ⟨index, member⟩
    exact ⟨index, (Finset.mem_filter.mp member).2⟩
  · rintro ⟨index, taken⟩
    exact ⟨index, Finset.mem_filter.mpr ⟨Finset.mem_univ index, taken⟩⟩

theorem tally_update [DecidableEq ι] (value : ι → α) (index : ι) (wrote target : α) :
    (tally (Function.update value index wrote) target : Int) =
      tally value target - (if value index = target then 1 else 0) +
        (if wrote = target then 1 else 0) := by
  have split : ∀ other : ι → α, tally other target =
      (if other index = target then 1 else 0) +
        ∑ place ∈ Finset.univ.erase index, if other place = target then 1 else 0 := by
    intro other
    rw [tally_eq_sum]
    exact (Finset.add_sum_erase _ (fun place => if other place = target then 1 else 0)
      (Finset.mem_univ index)).symm
  have rest : (∑ place ∈ Finset.univ.erase index,
        if Function.update value index wrote place = target then 1 else 0) =
      ∑ place ∈ Finset.univ.erase index, if value place = target then 1 else 0 := by
    refine Finset.sum_congr rfl (fun place member => ?_)
    rw [Function.update_of_ne (Finset.ne_of_mem_erase member)]
  rw [split (Function.update value index wrote), split value, rest, Function.update_self]
  push_cast
  omega

theorem sum_tally (value : ι → α) (values : Finset α) :
    ∑ target ∈ values, tally value target =
      (Finset.univ.filter (fun index => value index ∈ values)).card := by
  have fibers := Finset.card_eq_sum_card_fiberwise (f := value) (t := values)
    (s := Finset.univ.filter (fun index => value index ∈ values))
    (fun index member => (Finset.mem_filter.mp member).2)
  rw [fibers]
  refine Finset.sum_congr rfl (fun target inside => ?_)
  unfold tally
  congr 1
  ext index
  simp only [Finset.mem_filter, Finset.mem_univ, true_and]
  constructor
  · intro same
    exact ⟨same ▸ inside, same⟩
  · exact fun both => both.2

theorem sum_tally_lt (value : ι → α) {values : Finset α} {index : ι}
    (outside : value index ∉ values) : ∑ target ∈ values, tally value target < Fintype.card ι := by
  rw [sum_tally, ← Finset.card_univ]
  refine Finset.card_lt_card (Finset.filter_ssubset.mpr ⟨index, Finset.mem_univ index, outside⟩)

end Tally

/-! ### Counting on some of the places -/

section
variable {κ β : Type} [DecidableEq β]

def tallyOn (places : Finset κ) (value : κ → β) (target : β) : Nat :=
  (places.filter (fun place => value place = target)).card

namespace TallyOn

variable {places : Finset κ} {value : κ → β} {target : β}

theorem tallyOn_pos : 0 < tallyOn places value target ↔ ∃ place ∈ places, value place = target := by
  unfold tallyOn
  rw [Finset.card_pos]
  constructor
  · intro some
    obtain ⟨place, member⟩ := some
    exact ⟨place, Finset.mem_filter.mp member⟩
  · intro taken
    obtain ⟨place, inside, same⟩ := taken
    exact ⟨place, Finset.mem_filter.mpr ⟨inside, same⟩⟩

theorem tallyOn_congr {other : κ → β}
    (same : ∀ place ∈ places, other place = target ↔ value place = target) :
    tallyOn places other target = tallyOn places value target := by
  unfold tallyOn
  congr 1
  exact Finset.filter_congr same

theorem tallyOn_update [DecidableEq κ] {place : κ} (inside : place ∈ places) (wrote : β) :
    (tallyOn places (Function.update value place wrote) target : Int) =
      tallyOn places value target - (if value place = target then 1 else 0) +
        (if wrote = target then 1 else 0) := by
  have split : ∀ other : κ → β, tallyOn places other target =
      (if other place = target then 1 else 0) + tallyOn (places.erase place) other target := by
    intro other
    unfold tallyOn
    rw [Finset.card_filter, Finset.card_filter]
    exact (Finset.add_sum_erase _ (fun index => if other index = target then 1 else 0) inside).symm
  have rest : tallyOn (places.erase place) (Function.update value place wrote) target =
      tallyOn (places.erase place) value target := by
    apply tallyOn_congr
    intro other member
    rw [Function.update_of_ne (Finset.ne_of_mem_erase member)]
  rw [split (Function.update value place wrote), split value, rest, Function.update_self]
  push_cast
  omega

theorem tallyOn_eq_card (all : ∀ place ∈ places, value place = target) :
    tallyOn places value target = places.card := by
  unfold tallyOn
  rw [Finset.filter_true_of_mem all]

theorem forall_of_tallyOn_eq_card (full : tallyOn places value target = places.card) :
    ∀ place ∈ places, value place = target :=
  Finset.card_filter_eq_iff.mp full

end TallyOn

end

end Tair.Library
