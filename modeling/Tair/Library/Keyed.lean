/-
Lists whose entries have a key. An entry that is put takes the place of the one with its key,
and comes last if there is none. Read through their keys such lists are finite maps.
-/

import Mathlib

namespace Tair.Library.Keyed

variable {α β κ : Type} [DecidableEq κ] (key : α → κ)

/-- The first entry with this key. -/
def find (entries : List α) (wanted : κ) : Option α :=
  entries.find? (fun entry => key entry = wanted)

variable (entries : List α)

def put (entry : α) : List α :=
  if (find key entries (key entry)).isSome then
    entries.map (fun old => if key old = key entry then entry else old)
  else entries ++ [entry]

def erase (wanted : κ) : List α :=
  entries.filter (fun entry => key entry ≠ wanted)

variable {key}

theorem key_of_find {entries : List α} {wanted : κ} {entry : α}
    (found : find key entries wanted = some entry) : key entry = wanted := by
  have test := List.find?_some found
  exact of_decide_eq_true test

theorem isSome_find_iff {entries : List α} {wanted : κ} :
    (find key entries wanted).isSome ↔ wanted ∈ entries.map key := by
  unfold find
  rw [List.find?_isSome, List.mem_map]
  constructor
  · rintro ⟨entry, member, test⟩
    exact ⟨entry, member, of_decide_eq_true test⟩
  · rintro ⟨entry, member, same⟩
    exact ⟨entry, member, decide_eq_true same⟩

theorem find_eq_none_iff {entries : List α} {wanted : κ} :
    find key entries wanted = none ↔ wanted ∉ entries.map key := by
  rw [← Option.not_isSome_iff_eq_none, isSome_find_iff]

theorem find_append_of_notMem {first rest : List α} {wanted : κ}
    (absent : wanted ∉ first.map key) : find key (first ++ rest) wanted = find key rest wanted := by
  have none := find_eq_none_iff.mpr absent
  unfold find at none ⊢
  rw [List.find?_append, none, Option.none_or]

theorem find_skip {first rest : List α} {entry : α} {wanted : κ} (other : key entry ≠ wanted) :
    find key (first ++ entry :: rest) wanted = find key (first ++ rest) wanted := by
  unfold find
  rw [List.find?_append, List.find?_append, List.find?_cons_of_neg (by simpa using other)]

theorem find_cons (entry : α) (rest : List α) (wanted : κ) : find key (entry :: rest) wanted =
    if key entry = wanted then some entry else find key rest wanted := by
  by_cases same : key entry = wanted <;> simp [find, same]

/-! ### Entries of another kind with the same keys -/

section Map

variable {image : β → κ} {translate : α → β} (same : ∀ entry, image (translate entry) = key entry)

include same

theorem find_map (entries : List α) (wanted : κ) :
    find image (entries.map translate) wanted = (find key entries wanted).map translate := by
  unfold find
  rw [List.find?_map]
  exact congrArg (fun test => (entries.find? test).map translate)
    (funext fun entry => by rw [Function.comp_apply, same])

theorem erase_map (entries : List α) (wanted : κ) :
    erase image (entries.map translate) wanted = (erase key entries wanted).map translate := by
  unfold erase
  rw [List.filter_map]
  exact congrArg (fun test => (entries.filter test).map translate)
    (funext fun entry => by rw [Function.comp_apply, same])

theorem put_map (entries : List α) (entry : α) :
    put image (entries.map translate) (translate entry) = (put key entries entry).map translate := by
  unfold put
  rw [find_map same, same, Option.isSome_map]
  split_ifs with here
  · rw [List.map_map, List.map_map]
    refine List.map_congr_left fun old _ => ?_
    rw [Function.comp_apply, Function.comp_apply, same]
    split_ifs <;> rfl
  · rw [List.map_append]
    rfl

end Map

/-! ### What is found -/

theorem find_put (entry : α) (wanted : κ) :
    find key (put key entries entry) wanted =
      if key entry = wanted then some entry else find key entries wanted := by
  unfold put
  split_ifs with present hit hit
  · subst hit
    obtain ⟨old, found⟩ := Option.isSome_iff_exists.mp present
    rw [find, List.find?_map]
    have test : ((fun new => decide (key new = key entry)) ∘
        fun old => if key old = key entry then entry else old) =
          fun old => decide (key old = key entry) := by
      funext other
      rw [Function.comp_apply]
      by_cases here : key other = key entry
      · rw [if_pos here, decide_eq_true rfl, decide_eq_true here]
      · rw [if_neg here]
    rw [test]
    change Option.map _ (find key entries (key entry)) = _
    rw [found, Option.map_some, if_pos (key_of_find found)]
  · rw [find, List.find?_map]
    have test : ((fun new => decide (key new = wanted)) ∘
        fun old => if key old = key entry then entry else old) =
          fun old => decide (key old = wanted) := by
      funext other
      rw [Function.comp_apply]
      by_cases here : key other = key entry
      · rw [if_pos here, here]
      · rw [if_neg here]
    rw [test]
    change Option.map _ (find key entries wanted) = _
    cases found : find key entries wanted with
    | none => rfl
    | some old =>
      have apart : key old ≠ key entry := fun same =>
        hit (same.symm.trans (key_of_find found))
      rw [Option.map_some, if_neg apart]
  · subst hit
    have absent : find key entries (key entry) = none := Option.not_isSome_iff_eq_none.mp present
    unfold find at absent ⊢
    rw [List.find?_append, absent, Option.none_or]
    exact List.find?_cons_of_pos (decide_eq_true rfl)
  · have missed : [entry].find? (fun entry => key entry = wanted) = none :=
      List.find?_cons_of_neg (fun test => hit (of_decide_eq_true test))
    unfold find
    rw [List.find?_append, missed, Option.or_none]

theorem find_erase (erased wanted : κ) :
    find key (erase key entries erased) wanted =
      if erased = wanted then none else find key entries wanted := by
  split_ifs with same
  · subst same
    rw [find_eq_none_iff]
    intro member
    obtain ⟨entry, kept, hit⟩ := List.mem_map.mp member
    have other : key entry ≠ erased := by simpa using List.of_mem_filter kept
    exact other hit
  · unfold find erase
    rw [List.find?_filter]
    refine congrArg (fun test => entries.find? test) (funext fun entry => ?_)
    by_cases hit : key entry = wanted
    · have kept : key entry ≠ erased := fun other => same (other.symm.trans hit)
      simp [hit, hit ▸ kept]
    · simp [hit]

theorem mem_put {entries : List α} {entry other : α} (member : other ∈ put key entries entry) :
    other = entry ∨ other ∈ entries := by
  unfold put at member
  split_ifs at member
  · obtain ⟨old, kept, same⟩ := List.mem_map.mp member
    split_ifs at same
    · exact .inl same.symm
    · exact .inr (same ▸ kept)
  · rcases List.mem_append.mp member with kept | new
    · exact .inr kept
    · exact .inl (List.mem_singleton.mp new)

theorem erase_put {entries : List α} {entry : α} (absent : find key entries (key entry) = none) :
    erase key (put key entries entry) (key entry) = entries := by
  have kept : ∀ old ∈ entries, key old ≠ key entry := by
    intro old member same
    exact find_eq_none_iff.mp absent (same ▸ List.mem_map_of_mem member)
  unfold put erase
  rw [absent, if_neg (by simp), List.filter_append, List.filter_cons_of_neg (by simp),
    List.filter_nil, List.append_nil]
  exact List.filter_eq_self.mpr fun old member => decide_eq_true (kept old member)

/-! ### One entry for a key -/

theorem keys_put (entry : α) :
    (put key entries entry).map key =
      if (find key entries (key entry)).isSome then entries.map key
      else entries.map key ++ [key entry] := by
  unfold put
  split_ifs with present
  · rw [List.map_map]
    refine List.map_congr_left fun old _ => ?_
    rw [Function.comp_apply]
    split_ifs with here
    · exact here.symm
    · rfl
  · rw [List.map_append]
    rfl

theorem nodup_put {entries : List α} (single : (entries.map key).Nodup) (entry : α) :
    ((put key entries entry).map key).Nodup := by
  rw [keys_put]
  split_ifs with here
  · exact single
  · rw [isSome_find_iff] at here
    exact List.nodup_append_comm.mp (List.nodup_cons.mpr ⟨here, single⟩)

theorem nodup_erase {entries : List α} (single : (entries.map key).Nodup) (wanted : κ) :
    ((erase key entries wanted).map key).Nodup :=
  single.sublist (List.filter_sublist.map key)

/-! ### Finite maps -/

section Models

variable {ν : Type} {map : Finmap (fun _ : κ => ν)} {entries : List (κ × ν)}

/-- The list has for every key the value that the map has. -/
def Models (map : Finmap (fun _ : κ => ν)) (entries : List (κ × ν)) : Prop :=
  ∀ wanted, map.lookup wanted = (find Prod.fst entries wanted).map Prod.snd

theorem models_nil : Models (∅ : Finmap (fun _ : κ => ν)) [] := fun _ => Finmap.lookup_empty _

theorem Models.isSome_lookup (models : Models map entries) (wanted : κ) :
    (map.lookup wanted).isSome = (find Prod.fst entries wanted).isSome := by
  rw [models wanted, Option.isSome_map]

theorem Models.put (models : Models map entries) (wanted : κ) (value : ν) :
    Models (map.insert wanted value) (put Prod.fst entries (wanted, value)) := by
  intro other
  rw [find_put]
  by_cases same : wanted = other
  · subst same
    rw [if_pos rfl, Finmap.lookup_insert]
    rfl
  · rw [if_neg same, Finmap.lookup_insert_of_ne _ (Ne.symm same)]
    exact models other

theorem Models.erase (models : Models map entries) (wanted : κ) :
    Models (map.erase wanted) (erase Prod.fst entries wanted) := by
  intro other
  rw [find_erase]
  by_cases same : wanted = other
  · subst same
    rw [if_pos rfl, Finmap.lookup_erase]
    rfl
  · rw [if_neg same, Finmap.lookup_erase_ne (Ne.symm same)]
    exact models other

theorem Models.cons (models : Models map entries) (wanted : κ) (value : ν) :
    Models (map.insert wanted value) ((wanted, value) :: entries) := by
  intro other
  rw [find_cons]
  by_cases same : wanted = other
  · rw [if_pos same, same, Finmap.lookup_insert]
    rfl
  · rw [if_neg same, Finmap.lookup_insert_of_ne _ (Ne.symm same), models other]

theorem Models.overwrite {first rest : List (κ × ν)} {wanted : κ} {old : ν}
    (models : Models map (first ++ (wanted, old) :: rest)) (absent : wanted ∉ first.map Prod.fst)
    (value : ν) : Models (map.insert wanted value) (first ++ (wanted, value) :: rest) := by
  intro other
  by_cases same : other = wanted
  · rw [same, Finmap.lookup_insert, find_append_of_notMem absent, find_cons, if_pos rfl]
    rfl
  · rw [Finmap.lookup_insert_of_ne _ same, models other, find_skip (Ne.symm same),
      find_skip (Ne.symm same)]

theorem Models.without {rest : List (κ × ν)} {wanted : κ} (models : Models map entries)
    (absent : wanted ∉ rest.map Prod.fst)
    (same : ∀ other, wanted ≠ other → find Prod.fst rest other = find Prod.fst entries other) :
    Models (map.erase wanted) rest := by
  intro other
  by_cases here : wanted = other
  · rw [← here, Finmap.lookup_erase, find_eq_none_iff.mpr absent]
    rfl
  · rw [Finmap.lookup_erase_ne (Ne.symm here), same other here]
    exact models other

theorem Models.card_keys (models : Models map entries)
    (single : (entries.map Prod.fst).Nodup) : map.keys.card = entries.length := by
  have keys : map.keys = (entries.map Prod.fst).toFinset := by
    ext wanted
    rw [Finmap.mem_keys, List.mem_toFinset, ← isSome_find_iff, ← models.isSome_lookup]
    exact Finmap.lookup_isSome.symm
  rw [keys, List.toFinset_card_of_nodup single, List.length_map]

theorem card_insert_new {wanted : κ} (absent : map.lookup wanted = none) (value : ν) :
    (map.insert wanted value).keys.card = map.keys.card + 1 := by
  have keys : (map.insert wanted value).keys = insert wanted map.keys := by
    ext other
    rw [Finmap.mem_keys, Finmap.mem_insert, Finset.mem_insert, Finmap.mem_keys]
  have new : wanted ∉ map.keys := by
    rw [Finmap.mem_keys]
    exact Finmap.lookup_eq_none.mp absent
  rw [keys, Finset.card_insert_of_notMem new]

theorem erase_insert_new {wanted : κ} (absent : map.lookup wanted = none) (value : ν) :
    (map.insert wanted value).erase wanted = map := by
  refine Finmap.ext_lookup fun other => ?_
  by_cases same : other = wanted
  · rw [same, Finmap.lookup_erase, absent]
  · rw [Finmap.lookup_erase_ne same, Finmap.lookup_insert_of_ne _ same]

end Models

end Tair.Library.Keyed
