/-
Tables whose entries fall into groups, with a number beside every group that counts its
entries. A new entry, one that is taken out and one that is changed within its group keep
the numbers right.
-/

import Mathlib

namespace Tair.Library

variable {κ ν γ : Type}

theorem exists_erase [DecidableEq κ] {table : AList (fun _ : κ => ν)} {key : κ} {value : ν}
    (found : table.lookup key = some value) :
    ∃ before after, table.entries = before ++ ⟨key, value⟩ :: after ∧
      (table.erase key).entries = before ++ after := by
  have listed : (⟨key, value⟩ : Sigma fun _ : κ => ν) ∈ table.entries :=
    AList.mem_lookup_iff.mp found
  obtain ⟨other, before, after, _absent, split, erased⟩ :=
    List.exists_of_kerase (List.mem_keys_of_mem listed)
  have same : other = value := by
    have there : (⟨key, other⟩ : Sigma fun _ : κ => ν) ∈ table.entries := by
      rw [split]
      exact List.mem_append_right before List.mem_cons_self
    have looked := AList.mem_lookup_iff.mpr there
    rw [found] at looked
    exact (Option.some.inj looked).symm
  exact ⟨before, after, same ▸ split, erased⟩

theorem countP_erase [DecidableEq κ] {table : AList (fun _ : κ => ν)} {key : κ} {value : ν}
    (found : table.lookup key = some value) (test : ν → Bool) :
    table.entries.countP (fun entry => test entry.2) =
      (table.erase key).entries.countP (fun entry => test entry.2) +
        if test value then 1 else 0 := by
  obtain ⟨before, after, split, erased⟩ := exists_erase found
  rw [erased, split, List.countP_append, List.countP_cons, List.countP_append, Nat.add_assoc]

/-- The numbers count the entries of the groups. -/
def Counts [DecidableEq γ] (table : AList (fun _ : κ => ν)) (group : ν → γ) (count : γ → Nat) : Prop :=
  ∀ target, count target = table.entries.countP (fun entry => decide (group entry.2 = target))

namespace Counts

variable [DecidableEq γ] {table : AList (fun _ : κ => ν)} {group : ν → γ} {count : γ → Nat} {key : κ} {value : ν}

theorem empty : Counts (∅ : AList (fun _ : κ => ν)) group (fun _ => 0) := fun _ => rfl

variable [DecidableEq κ]

section

variable (counts : Counts table group count)

include counts

theorem insert (fresh : table.lookup key = none) :
    Counts (table.insert key value) group
      (Function.update count (group value) (count (group value) + 1)) := by
  intro target
  have absent : key ∉ table.entries.keys := AList.lookup_eq_none.mp fresh
  change _ = List.countP _ (⟨key, value⟩ :: List.kerase key table.entries)
  rw [List.kerase_of_notMem_keys absent, List.countP_cons, ← counts target]
  by_cases same : group value = target
  · subst target
    rw [Function.update_self, decide_eq_true rfl, if_pos rfl]
  · rw [Function.update_of_ne (Ne.symm same), decide_eq_false same]
    rfl

theorem erase (found : table.lookup key = some value) :
    Counts (table.erase key) group
      (Function.update count (group value) (count (group value) - 1)) := by
  intro target
  have parts := countP_erase found (fun entry => decide (group entry = target))
  rw [← counts target] at parts
  by_cases same : group value = target
  · subst target
    rw [Function.update_self]
    rw [decide_eq_true rfl, if_pos rfl] at parts
    omega
  · rw [Function.update_of_ne (Ne.symm same)]
    rw [decide_eq_false same] at parts
    exact parts

theorem replace {other : ν} (found : table.lookup key = some value)
    (same : group other = group value) : Counts (table.insert key other) group count := by
  intro target
  have parts := countP_erase found (fun entry => decide (group entry = target))
  change _ = List.countP _ (⟨key, other⟩ :: (table.erase key).entries)
  rw [List.countP_cons, counts target, parts, same]

theorem group_ne {target : γ} (none : count target = 0) (found : table.lookup key = some value) :
    group value ≠ target := by
  intro same
  have parts := countP_erase found (fun entry => decide (group entry = target))
  rw [← counts target, none, decide_eq_true same, if_pos rfl] at parts
  omega

end

end Counts

end Tair.Library
