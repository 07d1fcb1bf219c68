/-
Elements kept on numbered shelves. An element is moved by taking it from one shelf and putting it
on another. A shelf that was emptied stays in the index.
-/

import Mathlib

namespace Tair.Library

open Std

abbrev ShelfIndex (α : Type) [Ord α] := TreeMap Int (TreeSet α)

namespace ShelfIndex

variable {α : Type} [Ord α]

variable (index : ShelfIndex α)

def shelf (key : Int) : TreeSet α :=
  index.getD key ∅

def put (key : Int) (element : α) : ShelfIndex α :=
  index.insert key ((shelf index key).insert element)

def take (key : Int) (element : α) : ShelfIndex α :=
  index.insert key ((shelf index key).erase element)

/-- Every element of the domain stands on exactly the shelf its key names, and
nothing else stands anywhere. -/
def Shelved (domain : α → Prop) (key : α → Int) : Prop :=
  ∀ element place, element ∈ shelf index place ↔ domain element ∧ key element = place

theorem not_mem_shelf_empty (element : α) (place : Int) :
    element ∉ shelf (∅ : ShelfIndex α) place := by
  simp [shelf]

theorem mem_toList_of_mem_shelf {index : ShelfIndex α} {element : α} {place : Int}
    (stands : element ∈ shelf index place) : (place, shelf index place) ∈ index.toList := by
  rw [TreeMap.mem_toList_iff_getElem?_eq_some]
  cases found : index[place]? with
  | none =>
    have empty : shelf index place = ∅ := by
      unfold shelf
      rw [TreeMap.getD_eq_getD_getElem?, found, Option.getD_none]
    rw [empty] at stands
    exact absurd stands TreeSet.not_mem_emptyc
  | some standing =>
    have same : shelf index place = standing := by
      unfold shelf
      rw [TreeMap.getD_eq_getD_getElem?, found, Option.getD_some]
    rw [same]

theorem shelf_of_mem_toList {index : ShelfIndex α} {place : Int} {standing : TreeSet α compare}
    (met : (place, standing) ∈ index.toList) : shelf index place = standing := by
  rw [TreeMap.mem_toList_iff_getElem?_eq_some] at met
  unfold shelf
  rw [TreeMap.getD_eq_getD_getElem?, met, Option.getD_some]

variable [TransOrd α] [LawfulEqOrd α]

theorem mem_shelf_put (key place : Int) (moved element : α) :
    element ∈ shelf (put index key moved) place ↔
      (place = key ∧ element = moved) ∨ element ∈ shelf index place := by
  unfold put shelf
  rw [TreeMap.getD_insert]
  by_cases here : key = place
  · subst here
    simp only [compare_self, if_true, TreeSet.mem_insert, LawfulEqCmp.compare_eq_iff_eq, true_and]
    exact or_congr_left eq_comm
  · have apart : place ≠ key := fun same => here same.symm
    simp [LawfulEqCmp.compare_eq_iff_eq, here, apart]

theorem mem_shelf_take (key place : Int) (moved element : α) :
    element ∈ shelf (take index key moved) place ↔
      element ∈ shelf index place ∧ ¬(place = key ∧ element = moved) := by
  unfold take shelf
  rw [TreeMap.getD_insert]
  by_cases here : key = place
  · subst here
    simp only [compare_self, if_true, TreeSet.mem_erase, ne_eq, LawfulEqCmp.compare_eq_iff_eq, true_and]
    constructor
    · rintro ⟨ne, present⟩
      exact ⟨present, fun same => ne same.symm⟩
    · rintro ⟨present, ne⟩
      exact ⟨fun same => ne same.symm, present⟩
  · have apart : place ≠ key := fun same => here same.symm
    simp [LawfulEqCmp.compare_eq_iff_eq, here, apart]

/-- Taking an element from the shelf of its old key and putting it on the shelf
of its new key keeps the index exact. -/
theorem Shelved.move {index : ShelfIndex α} {domain : α → Prop} {key : α → Int}
    (shelved : Shelved index domain key) (key' : α → Int) {moved : α} (member : domain moved)
    (others : ∀ element, element ≠ moved → key' element = key element) :
    Shelved (put (take index (key moved) moved) (key' moved) moved) domain key' := by
  intro element place
  rw [mem_shelf_put, mem_shelf_take, shelved element place]
  by_cases same : element = moved
  · subst same
    constructor
    · rintro (⟨atPlace, -⟩ | ⟨⟨-, atOld⟩, gone⟩)
      · exact ⟨member, atPlace.symm⟩
      · exact absurd ⟨atOld.symm, rfl⟩ gone
    · rintro ⟨-, atPlace⟩
      exact Or.inl ⟨atPlace.symm, rfl⟩
  · rw [others element same]
    constructor
    · rintro (⟨-, wrong⟩ | ⟨stands, -⟩)
      · exact absurd wrong same
      · exact stands
    · intro stands
      exact Or.inr ⟨stands, fun both => same both.2⟩

theorem mem_shelf_foldl_put {β : Type} (key : β → Int) (element : β → α) (items : List β)
    (index : ShelfIndex α) (target : α) (place : Int) :
    target ∈ shelf (items.foldl (fun built item => put built (key item) (element item)) index) place ↔
      target ∈ shelf index place ∨ ∃ item ∈ items, key item = place ∧ element item = target := by
  induction items generalizing index with
  | nil => simp
  | cons head tail ih =>
    rw [List.foldl_cons, ih, mem_shelf_put]
    simp only [List.mem_cons, exists_eq_or_imp]
    constructor
    · rintro ((⟨atPlace, isHead⟩ | earlier) | later)
      · exact Or.inr (Or.inl ⟨atPlace.symm, isHead.symm⟩)
      · exact Or.inl earlier
      · exact Or.inr (Or.inr later)
    · rintro (earlier | ⟨atPlace, isHead⟩ | later)
      · exact Or.inl (Or.inr earlier)
      · exact Or.inl (Or.inl ⟨atPlace.symm, isHead.symm⟩)
      · exact Or.inr later

end ShelfIndex

end Tair.Library
