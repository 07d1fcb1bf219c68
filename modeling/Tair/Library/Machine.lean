/-
Machines that may fault. A machine takes events one after the other; a condition says in which
state which event may come. The states of all runs that meet it are those of `Reached`.
-/

import Mathlib

namespace Tair.Library

variable {σ ε φ : Type}

theorem ok_of_map {α β : Type} {change : α → β} {ran : Except φ α} {result : β}
    (mapped : change <$> ran = .ok result) : ∃ value, ran = .ok value ∧ result = change value := by
  cases ran with
  | error fault => cases mapped
  | ok value =>
    cases mapped
    exact ⟨value, rfl, rfl⟩

theorem ok_of_bind {α β : Type} {ran : Except φ α} {rest : α → Except φ β} {result : β}
    (bound : (ran >>= rest) = .ok result) : ∃ value, ran = .ok value ∧ rest value = .ok result := by
  cases ran with
  | error fault => cases bound
  | ok value => exact ⟨value, rfl, bound⟩

theorem error_of_bind {α β : Type} {ran : Except φ α} {rest : α → Except φ β} {fault : φ}
    (bound : (ran >>= rest) = .error fault) :
    ran = .error fault ∨ ∃ value, ran = .ok value ∧ rest value = .error fault := by
  cases ran with
  | error first =>
    cases bound
    exact .inl rfl
  | ok value => exact .inr ⟨value, rfl, bound⟩

theorem ok_of_toOption {α : Type} {ran : Except φ α} {value : α}
    (some : ran.toOption = some value) : ran = .ok value := by
  cases ran with
  | error fault => cases some
  | ok result =>
    cases some
    rfl

/-- A loop over a list whose every round keeps a relation to the state before it. -/
theorem foldlM_relates {α : Type} {round : σ → α → Except φ σ} {Related : σ → σ → Prop}
    (refl : ∀ state, Related state state)
    (trans : ∀ {first second third}, Related first second → Related second third →
      Related first third)
    (rounds : ∀ {state next} (entry : α), round state entry = .ok next → Related state next)
    {entries : List α} {start final : σ} (looped : entries.foldlM round start = .ok final) :
    Related start final := by
  induction entries generalizing start with
  | nil =>
    cases looped
    exact refl _
  | cons entry rest ih =>
    rw [List.foldlM_cons] at looped
    obtain ⟨next, ran, more⟩ := ok_of_bind looped
    exact trans (rounds entry ran) (ih more)

/-- The states of the runs from `start` in which every event was allowed and none
was a fault. -/
inductive Reached (step : σ → ε → Except φ σ) (Allowed : σ → ε → Prop) (start : σ) : σ → Prop
  | start : Reached step Allowed start start
  | step {state next : σ} (earlier : Reached step Allowed start state) (event : ε)
      (allowed : Allowed state event) (stepped : step state event = .ok next) :
      Reached step Allowed start next

namespace Reached

variable {step : σ → ε → Except φ σ} {Allowed : σ → ε → Prop} {start : σ}

theorem invariant (Inv : σ → Prop) (initial : Inv start)
    (keeps : ∀ {state next : σ} {event : ε}, Inv state → Allowed state event →
      step state event = .ok next → Inv next)
    {state : σ} (reached : Reached step Allowed start state) : Inv state := by
  induction reached with
  | start => exact initial
  | step prior event allowed ran ih => exact keeps ih allowed ran

end Reached

/-- The run on these events, as long as they are allowed and do not fault. -/
def guardedRun (step : σ → ε → Except φ σ) (Allowed : σ → ε → Prop)
    [∀ state event, Decidable (Allowed state event)] : List ε → σ → Option σ
  | [], state => some state
  | event :: rest, state =>
    if Allowed state event then
      match step state event with
      | .ok next => guardedRun step Allowed rest next
      | .error _ => none
    else none

theorem Reached.of_guardedRun {step : σ → ε → Except φ σ} {Allowed : σ → ε → Prop}
    [∀ state event, Decidable (Allowed state event)] {start : σ} (events : List ε) {state final : σ}
    (reached : Reached step Allowed start state)
    (run : guardedRun step Allowed events state = some final) :
    Reached step Allowed start final := by
  induction events generalizing state with
  | nil =>
    cases run
    exact reached
  | cons event rest ih =>
    unfold guardedRun at run
    by_cases allowed : Allowed state event
    · rw [if_pos allowed] at run
      cases ran : step state event with
      | error fault =>
        rw [ran] at run
        cases run
      | ok next =>
        rw [ran] at run
        exact ih (reached.step event allowed ran) run
    · rw [if_neg allowed] at run
      cases run

/-! ### Computed runs -/

instance decidableExistsSome {α : Type} {P : α → Prop} [DecidablePred P] (found : Option α) :
    Decidable (∃ value, found = some value ∧ P value) :=
  match found with
  | none => isFalse (by simp)
  | some value => decidable_of_iff (P value) (by simp)

instance decidableExistsOk {α : Type} {P : α → Prop} [DecidablePred P] (ran : Except φ α) :
    Decidable (∃ value, ran = .ok value ∧ P value) :=
  match ran with
  | .error _ => isFalse (by simp)
  | .ok value => decidable_of_iff (P value) (by simp)

section

variable {step : σ → ε → Except φ σ} {Allowed : σ → ε → Prop}
  [∀ state event, Decidable (Allowed state event)] {P : σ → Prop}

theorem exists_run (events : List ε) {start : σ}
    (ran : ∃ final, guardedRun step Allowed events start = some final ∧ P final) :
    ∃ final, Reached step Allowed start final ∧ P final := by
  obtain ⟨final, run, holds⟩ := ran
  exact ⟨final, .of_guardedRun events .start run, holds⟩

/-- A machine that may already fault at its start. -/
theorem exists_reached (events : List ε) {begun : Except φ σ} (ran : ∃ start, begun = .ok start ∧
      ∃ final, guardedRun step Allowed events start = some final ∧ P final) :
    ∃ start final, begun = .ok start ∧ Reached step Allowed start final ∧ P final := by
  obtain ⟨start, isStart, ran⟩ := ran
  obtain ⟨final, reached, holds⟩ := exists_run events ran
  exact ⟨start, final, isStart, reached, holds⟩

end

end Tair.Library
