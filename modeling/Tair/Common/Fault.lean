/-
What ends a run of the code: an assertion that fails, and a loop that never ends.
-/

import Mathlib

namespace Tair.Common

inductive Fault where
  | assertFailed
  | endless
deriving DecidableEq, Repr

def check {α : Type} (holds : Prop) [Decidable holds] (rest : Except Fault α) :
    Except Fault α :=
  if holds then rest else .error .assertFailed

theorem ok_of_check {α : Type} {holds : Prop} [Decidable holds] {rest : Except Fault α}
    {result : α} (checked : check holds rest = .ok result) : holds ∧ rest = .ok result := by
  unfold check at checked
  by_cases condition : holds
  · rw [if_pos condition] at checked
    exact ⟨condition, checked⟩
  · rw [if_neg condition] at checked
    cases checked

end Tair.Common
