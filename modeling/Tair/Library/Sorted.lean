/-
Cuts of a list that is in order. Where a test holds of everything before an element of which it
holds, the part up to the first failure is the part of which the test holds, and the part from
there on is the rest.
-/

import Mathlib

namespace Tair.Library.Sorted

variable {α : Type} {before : α → α → Prop} {test : α → Bool}

section

variable (closed : ∀ first second, before first second → test second = true → test first = true)
  {items : List α} (sorted : items.Pairwise before)

include closed sorted

theorem cut_eq_filter : items.takeWhile test = items.filter test ∧
    items.dropWhile test = items.filter (fun item => !test item) := by
  induction items with
  | nil => exact ⟨rfl, rfl⟩
  | cons item rest ih =>
    obtain ⟨head, tail⟩ := List.pairwise_cons.mp sorted
    cases holds : test item with
    | true => simp [holds, ih tail]
    | false =>
      have fails : ∀ other ∈ rest, test other = false := by
        intro other member
        rw [← Bool.not_eq_true] at holds ⊢
        exact fun passed => holds (closed item other (head other member) passed)
      have all : rest.filter (fun item => !test item) = rest :=
        List.filter_eq_self.mpr fun other member => by simp [fails other member]
      simp only [holds, all, List.takeWhile_cons, List.dropWhile_cons, List.filter_cons]
      simpa using fails

theorem takeWhile_eq_filter : items.takeWhile test = items.filter test :=
  (cut_eq_filter closed sorted).1

theorem dropWhile_eq_filter : items.dropWhile test = items.filter (fun item => !test item) :=
  (cut_eq_filter closed sorted).2

end

/-- An element put where the test fails first keeps the order, when what passes the test may
stand before it and what fails may stand behind it. -/
theorem pairwise_insert [IsTrans α before] {items : List α} {item : α}
    (sorted : items.Pairwise before) (low : ∀ other, test other = true → before other item)
    (high : ∀ other, test other = false → before item other) :
    (items.takeWhile test ++ item :: items.dropWhile test).Pairwise before := by
  have split : (items.takeWhile test ++ items.dropWhile test).Pairwise before := by
    rw [List.takeWhile_append_dropWhile]
    exact sorted
  obtain ⟨left, right, across⟩ := List.pairwise_append.mp split
  have above : ∀ other ∈ items.dropWhile test, before item other := by
    cases rest : items.dropWhile test with
    | nil => simp
    | cons first others =>
      have failed : test first = false := by
        have ended := List.head?_dropWhile_not test items
        rw [rest] at ended
        simpa using ended
      rw [rest] at right
      intro other member
      rcases List.mem_cons.mp member with here | later
      · rw [here]
        exact high first failed
      · exact IsTrans.trans _ _ _ (high first failed)
          ((List.pairwise_cons.mp right).1 other later)
  refine List.pairwise_append.mpr ⟨left, List.pairwise_cons.mpr ⟨above, right⟩, ?_⟩
  intro first inLeft second inRight
  rcases List.mem_cons.mp inRight with here | later
  · rw [here]
    exact low first (List.mem_takeWhile_imp inLeft)
  · exact across first inLeft second later

/-- A list without repetitions and its reversal start alike only with one element at most: what
is common to both as a part has at most one element. -/
theorem length_le_one_of_sublists {items part : List α} (apart : items.Nodup)
    (forward : part.Sublist items) (backward : part.Sublist items.reverse) : part.length ≤ 1 := by
  rcases part with _ | ⟨first, _ | ⟨second, rest⟩⟩
  · exact Nat.zero_le 1
  · exact le_refl 1
  exfalso
  have pair : [first, second].Sublist (first :: second :: rest) :=
    ((List.nil_sublist rest).cons_cons second).cons_cons first
  have ahead := pair.trans forward
  have behind := (pair.trans backward).reverse
  rw [List.reverse_reverse] at behind
  clear forward backward pair
  -- Both orders of the two would be found in a list that has each of them once.
  induction items with
  | nil => cases ahead
  | cons item items ih =>
    obtain ⟨fresh, apart⟩ := List.nodup_cons.mp apart
    cases ahead with
    | cons _ ahead =>
      cases behind with
      | cons _ behind => exact ih apart ahead behind
      | cons_cons _ _ => exact fresh (ahead.subset (by simp))
    | cons_cons _ later =>
      cases behind with
      | cons _ behind => exact fresh (behind.subset (by simp))
      | cons_cons _ _ => exact fresh (later.subset (by simp))

theorem eq_of_keys_eq {κ : Type} {key : α → κ} {items : List α}
    (apart : (items.map key).Nodup) {first second : List α} (inFirst : first ⊆ items)
    (inSecond : second ⊆ items) (same : first.map key = second.map key) : first = second := by
  induction first generalizing second with
  | nil => exact (List.map_eq_nil_iff.mp same.symm).symm
  | cons item first ih =>
    cases second with
    | nil => cases same
    | cons other second =>
      obtain ⟨sameKey, sameKeys⟩ := List.cons.inj same
      have sameItem : item = other :=
        List.inj_on_of_nodup_map apart (inFirst List.mem_cons_self)
          (inSecond List.mem_cons_self) sameKey
      rw [sameItem, ih (fun _ member => inFirst (List.mem_cons_of_mem _ member))
        (fun _ member => inSecond (List.mem_cons_of_mem _ member)) sameKeys]

end Tair.Library.Sorted
