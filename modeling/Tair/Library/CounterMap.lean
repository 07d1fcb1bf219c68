/-
Maps that count. The map holds for every key the number of its items; a key without items has no
entry. Counting an item in and out keeps this, and the entries add up to all items.
-/

import Mathlib

namespace Tair.Library

open Std

section Keys

variable {κ ν ι : Type} [Ord κ] [TransOrd κ] [LawfulEqOrd κ]

theorem nodup_keys (map : TreeMap κ ν) : map.keys.Nodup :=
  TreeMap.distinct_keys.imp (fun apart same => apart (LawfulEqCmp.compare_eq_iff_eq.mpr same))

/-- A map with one key for each of these items. -/
theorem size_eq_card [DecidableEq κ] {map : TreeMap κ ν} {items : Finset ι} {keyOf : ι → κ}
    (apart : Function.Injective keyOf)
    (keys : ∀ key, key ∈ map ↔ ∃ item ∈ items, key = keyOf item) : map.size = items.card := by
  have same : map.keys.toFinset = items.image keyOf := by
    ext key
    rw [List.mem_toFinset, TreeMap.mem_keys, keys, Finset.mem_image]
    exact exists_congr (fun item => and_congr_right (fun _ => eq_comm))
  rw [← TreeMap.length_keys, ← List.toFinset_card_of_nodup (nodup_keys map), same,
    Finset.card_image_of_injective _ apart]

end Keys

abbrev CounterMap (κ : Type) [Ord κ] := TreeMap κ Int

namespace CounterMap

variable {κ ι : Type}

section Fibers

variable [DecidableEq κ]

/-- The items of one key. -/
def fiber (items : Finset ι) (keyOf : ι → κ) (key : κ) : Finset ι :=
  items.filter (fun item => keyOf item = key)

theorem mem_fiber {items : Finset ι} {keyOf : ι → κ} {key : κ} {item : ι} :
    item ∈ fiber items keyOf key ↔ item ∈ items ∧ keyOf item = key :=
  Finset.mem_filter

end Fibers

variable [Ord κ]

def bump (counts : CounterMap κ) (key : κ) : CounterMap κ :=
  counts.insert key (counts.getD key 0 + 1)

/-- `none` when there is nothing to count out. An entry that reaches 0 goes. -/
def drop (counts : CounterMap κ) (key : κ) : Option (CounterMap κ) :=
  match counts[key]? with
  | none => none
  | some count => some (if count - 1 = 0 then counts.erase key else counts.insert key (count - 1))

def total (counts : CounterMap κ) : Int := (counts.toList.map Prod.snd).sum

variable [DecidableEq κ]

/-- The map counts these items. -/
def Exact (counts : CounterMap κ) (items : Finset ι) (keyOf : ι → κ) : Prop :=
  ∀ key, counts[key]? =
    if (fiber items keyOf key).card = 0 then none else some ((fiber items keyOf key).card : Int)

namespace Exact

variable {counts : CounterMap κ} {items : Finset ι} {keyOf : ι → κ}

/-- Keys matter on the counted items only. -/
theorem congr (exact : Exact counts items keyOf) {keyOf' : ι → κ}
    (same : ∀ item ∈ items, keyOf' item = keyOf item) : Exact counts items keyOf' := by
  intro key
  have fibers : fiber items keyOf' key = fiber items keyOf key :=
    Finset.filter_congr (fun item member => by rw [same item member])
  rw [fibers]
  exact exact key

variable [TransOrd κ]

theorem empty (keyOf : ι → κ) : Exact (∅ : CounterMap κ) ∅ keyOf := by
  intro key
  rw [if_pos (by unfold fiber; rw [Finset.filter_empty, Finset.card_empty])]
  exact TreeMap.getElem?_emptyc

theorem getD (exact : Exact counts items keyOf) (key : κ) :
    counts.getD key 0 = (fiber items keyOf key).card := by
  rw [TreeMap.getD_eq_getD_getElem?, exact key]
  split_ifs with none
  · rw [none]
    rfl
  · rfl

variable [LawfulEqOrd κ]

theorem bump [DecidableEq ι] (exact : Exact counts items keyOf) {item : ι} (fresh : item ∉ items) :
    Exact (counts.bump (keyOf item)) (insert item items) keyOf := by
  intro key
  unfold CounterMap.bump
  rw [TreeMap.getElem?_insert, fiber, Finset.filter_insert, ← fiber]
  simp only [LawfulEqCmp.compare_eq_iff_eq]
  by_cases here : keyOf item = key
  · have new : item ∉ fiber items keyOf key := fun member => fresh (mem_fiber.mp member).1
    rw [if_pos here, if_pos here, Finset.card_insert_of_notMem new, if_neg (Nat.succ_ne_zero _),
      exact.getD, here]
    rfl
  · rw [if_neg here, if_neg here]
    exact exact key

/-- A loop that counts the items it keeps, over items that are all different. -/
theorem foldl [DecidableEq ι] (keep : ι → Prop) [DecidablePred keep] (keyOf : ι → κ)
    {items : List ι} (apart : items.Nodup) :
    let result := items.foldl (fun filled item =>
      if keep item then (filled.1.bump (keyOf item), filled.2 + 1) else filled)
      ((∅ : CounterMap κ), (0 : Int))
    Exact result.1 (items.toFinset.filter keep) keyOf ∧
      result.2 = (items.toFinset.filter keep).card := by
  -- Induction from the right end, so that the last item meets what the loop has counted.
  induction items using List.reverseRecOn with
  | nil => exact ⟨empty keyOf, rfl⟩
  | append_singleton rest last ih =>
    have split := List.nodup_append.mp apart
    have fresh : last ∉ rest := fun member => split.2.2 last member last List.mem_cons_self rfl
    obtain ⟨exact, count⟩ := ih split.1
    dsimp only at exact count ⊢
    have items : (rest ++ [last]).toFinset = insert last rest.toFinset := by
      ext item
      simp
    rw [List.foldl_append, List.foldl_cons, List.foldl_nil, items, Finset.filter_insert]
    by_cases kept : keep last
    · have new : last ∉ rest.toFinset.filter keep :=
        fun member => fresh (List.mem_toFinset.mp (Finset.mem_filter.mp member).1)
      rw [if_pos kept, if_pos kept, Finset.card_insert_of_notMem new, count]
      exact ⟨exact.bump new, by push_cast; rfl⟩
    · rw [if_neg kept, if_neg kept]
      exact ⟨exact, count⟩

section

variable (exact : Exact counts items keyOf)

include exact

theorem drop [DecidableEq ι] {item : ι} (member : item ∈ items) :
    ∃ lost, counts.drop (keyOf item) = some lost ∧
      Exact lost (items.erase item) keyOf := by
  have inside : item ∈ fiber items keyOf (keyOf item) := mem_fiber.mpr ⟨member, rfl⟩
  have pos : (fiber items keyOf (keyOf item)).card ≠ 0 := Finset.card_ne_zero_of_mem inside
  have entry : counts[keyOf item]? = some ((fiber items keyOf (keyOf item)).card : Int) := by
    rw [exact (keyOf item), if_neg pos]
  have less := Finset.card_erase_of_mem inside
  unfold CounterMap.drop
  rw [entry]
  refine ⟨_, rfl, fun key => ?_⟩
  rw [show fiber (items.erase item) keyOf key = (fiber items keyOf key).erase item from
    Finset.filter_erase _ _ _]
  by_cases here : keyOf item = key
  · rw [← here, less]
    by_cases last : (fiber items keyOf (keyOf item)).card = 1
    · rw [if_pos (by omega), if_pos (by omega), TreeMap.getElem?_erase,
        if_pos (LawfulEqCmp.compare_eq_iff_eq.mpr rfl)]
    · rw [if_neg (by omega), if_neg (by omega), TreeMap.getElem?_insert,
        if_pos (LawfulEqCmp.compare_eq_iff_eq.mpr rfl)]
      congr 1
      omega
  · have other : item ∉ fiber items keyOf key := fun wrong => here (mem_fiber.mp wrong).2
    have apart : compare (keyOf item) key ≠ .eq :=
      fun same => here (LawfulEqCmp.compare_eq_iff_eq.mp same)
    rw [Finset.erase_eq_of_notMem other, ← exact key]
    split_ifs
    · rw [TreeMap.getElem?_erase, if_neg apart]
    · rw [TreeMap.getElem?_insert, if_neg apart]

theorem mem_keys {item : ι} (member : item ∈ items) : keyOf item ∈ counts.keys := by
  have inside : item ∈ fiber items keyOf (keyOf item) := mem_fiber.mpr ⟨member, rfl⟩
  rw [TreeMap.mem_keys, TreeMap.mem_iff_isSome_getElem?, exact (keyOf item),
    if_neg (Finset.card_ne_zero_of_mem inside)]
  rfl

theorem total : counts.total = items.card := by
  have values : counts.toList.map Prod.snd =
      counts.keys.map (fun key => ((fiber items keyOf key).card : Int)) := by
    rw [← TreeMap.map_fst_toList_eq_keys, List.map_map]
    refine List.map_congr_left (fun entry member => ?_)
    have found := TreeMap.mem_toList_iff_getElem?_eq_some.mp member
    change entry.2 = ((fiber items keyOf entry.1).card : Int)
    rw [← exact.getD, TreeMap.getD_eq_getD_getElem?, found]
    rfl
  have fibers := Finset.card_eq_sum_card_fiberwise (f := keyOf) (s := items)
    (t := counts.keys.toFinset) (fun item member => List.mem_toFinset.mpr (exact.mem_keys member))
  unfold CounterMap.total
  rw [values, ← List.sum_toFinset _ (nodup_keys counts), fibers]
  push_cast
  rfl

theorem isEmpty_iff : counts.isEmpty = true ↔ items = ∅ := by
  constructor
  · intro none
    refine Finset.eq_empty_of_forall_notMem (fun item member => ?_)
    have known := exact.mem_keys member
    rw [TreeMap.mem_keys] at known
    exact absurd known (TreeMap.not_mem_of_isEmpty none)
  · intro none
    rw [TreeMap.isEmpty_iff_forall_not_mem]
    intro key known
    rw [TreeMap.mem_iff_isSome_getElem?, exact key, none] at known
    rw [if_pos (by unfold fiber; rw [Finset.filter_empty, Finset.card_empty])] at known
    cases known

end

end Exact

end CounterMap

end Tair.Library
