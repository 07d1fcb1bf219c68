/-
Loops that may stop early. A failing step ends a scan with the state reached. The rules carry an
invariant that may mention how much of the list is behind the scan.
-/

import Tair.Library.Machine

namespace Tair.Library.Scan

variable {σ ε β : Type}

/-- The state a scan ends with, whether it finished or stopped. -/
def reached : Except σ σ → σ
  | .ok state => state
  | .error state => state

section

variable {step : σ → β → Except ε σ} (Inv : List β → σ → Prop) (items : List β) (start : σ)
  (initial : Inv [] start)

include initial

section

variable (keeps : ∀ before item after state next, items = before ++ item :: after →
  Inv before state → step state item = .ok next → Inv (before ++ [item]) next)

include keeps

/-- The rule behind the others. A scan with an invariant either finishes with it
for the whole list, or stops at an item with the invariant for the items before. -/
theorem foldlM_cases :
    (∃ final, items.foldlM step start = .ok final ∧ Inv items final) ∨
      ∃ before item after state failure, items = before ++ item :: after ∧ Inv before state ∧
        step state item = .error failure ∧ items.foldlM step start = .error failure := by
  suffices walk : ∀ (after before : List β) (state : σ), items = before ++ after →
      Inv before state →
      (∃ final, after.foldlM step state = .ok final ∧ Inv items final) ∨
        ∃ prior item later reached failure, items = prior ++ item :: later ∧
          Inv prior reached ∧ step reached item = .error failure ∧
          after.foldlM step state = .error failure from
    walk items [] start rfl initial
  intro after
  induction after with
  | nil =>
    intro before state split holds
    rw [List.append_nil] at split
    exact Or.inl ⟨state, rfl, split ▸ holds⟩
  | cons item rest ih =>
    intro before state split holds
    rw [List.foldlM_cons]
    cases ran : step state item with
    | error failure => exact Or.inr ⟨before, item, rest, state, failure, split, holds, ran, rfl⟩
    | ok next =>
      have longer : items = (before ++ [item]) ++ rest := by
        rw [split, List.append_assoc]
        rfl
      exact ih (before ++ [item]) next longer
        (keeps before item rest state next split holds ran)

theorem foldlM_ok {final : σ} (finished : items.foldlM step start = .ok final) :
    Inv items final := by
  rcases foldlM_cases Inv items start initial keeps with
    ⟨reached, done, holds⟩ | ⟨-, -, -, -, failure, -, -, -, ended⟩
  · rw [finished] at done
    cases done
    exact holds
  · rw [finished] at ended
    cases ended

end

theorem foldlM_total (advances : ∀ before item after state, items = before ++ item :: after →
      Inv before state → ∃ next, step state item = .ok next ∧ Inv (before ++ [item]) next) :
    ∃ final, items.foldlM step start = .ok final ∧ Inv items final := by
  have keeps : ∀ before item after state next, items = before ++ item :: after →
      Inv before state → step state item = .ok next → Inv (before ++ [item]) next := by
    intro before item after state next split holds ran
    obtain ⟨advanced, same, kept⟩ := advances before item after state split holds
    rw [ran] at same
    cases same
    exact kept
  rcases foldlM_cases Inv items start initial keeps with
    done | ⟨before, item, after, state, failure, split, holds, ended, -⟩
  · exact done
  · obtain ⟨next, ran, -⟩ := advances before item after state split holds
    rw [ended] at ran
    cases ran

end

theorem foldlM_each {step : σ → β → Except ε σ} {items : List β} {start final : σ}
    (done : items.foldlM step start = .ok final) {item : β} (member : item ∈ items) :
    ∃ state next, step state item = .ok next := by
  induction items generalizing start with
  | nil => exact absurd member List.not_mem_nil
  | cons head rest ih =>
    rw [List.foldlM_cons] at done
    obtain ⟨next, ran, done⟩ := ok_of_bind done
    rcases List.mem_cons.mp member with same | later
    · rw [same]
      exact ⟨start, next, ran⟩
    · exact ih done later

/-- A search whose tests all succeed, and which stops at the first hit. -/
theorem anyM_ok {test : β → Except ε Bool} {found : β → Bool} (items : List β)
    (tested : ∀ item ∈ items, test item = .ok (found item)) :
    items.anyM test = .ok (items.any found) := by
  induction items with
  | nil => rfl
  | cons item rest ih =>
    have later := ih (fun other member => tested other (List.mem_cons_of_mem _ member))
    rw [List.anyM, tested item List.mem_cons_self, List.any_cons, later]
    cases found item with
    | true => rfl
    | false => rfl

theorem anyM_false {test : β → Except ε Bool} {items : List β}
    (searched : items.anyM test = .ok false) {item : β} (member : item ∈ items) :
    test item = .ok false := by
  induction items with
  | nil => exact absurd member List.not_mem_nil
  | cons head rest ih =>
    rw [List.anyM] at searched
    obtain ⟨found, tested, searched⟩ := ok_of_bind searched
    cases found with
    | true => cases searched
    | false =>
      rcases List.mem_cons.mp member with same | later
      · rw [same]
        exact tested
      · exact ih searched later

theorem foldlM_flatMap {γ : Type} (step : σ → β → Except ε σ) (inner : γ → List β) (items : List γ)
    (start : σ) : (items.flatMap inner).foldlM step start =
      items.foldlM (fun state item => (inner item).foldlM step state) start := by
  induction items generalizing start with
  | nil => rfl
  | cons item rest ih => simp only [List.flatMap_cons, List.foldlM_append, List.foldlM_cons, ih]

/-- A property of the state alone that no step breaks, not even a failing one,
holds of whatever the scan ends with. -/
theorem foldlM_keeps {step : σ → β → Except σ σ} (Inv : σ → Prop) (items : List β)
    (keeps : ∀ state, ∀ item ∈ items, Inv state → Inv (reached (step state item)))
    (start : σ) (initial : Inv start) : Inv (reached (items.foldlM step start)) := by
  induction items generalizing start with
  | nil => exact initial
  | cons item rest ih =>
    rw [List.foldlM_cons]
    have kept := keeps start item List.mem_cons_self initial
    have later : ∀ state, ∀ other ∈ rest, Inv state → Inv (reached (step state other)) :=
      fun state other member => keeps state other (List.mem_cons_of_mem _ member)
    cases ran : step start item with
    | error ended =>
      rw [ran] at kept
      exact kept
    | ok next =>
      rw [ran] at kept
      exact ih later next kept

/-! ### Two scans side by side -/

/-- Both succeed or both fail, with related states. -/
inductive Related {σ τ : Type} (Rel : σ → τ → Prop) : Except σ σ → Except τ τ → Prop
  | ok {left : σ} {right : τ} (related : Rel left right) : Related Rel (.ok left) (.ok right)
  | error {left : σ} {right : τ} (related : Rel left right) :
      Related Rel (.error left) (.error right)

theorem Related.imp {τ : Type} {Rel Rel' : σ → τ → Prop} {left : Except σ σ}
    {right : Except τ τ} (related : Related Rel left right)
    (weaker : ∀ {left right}, Rel left right → Rel' left right) : Related Rel' left right := by
  cases related with
  | ok related => exact .ok (weaker related)
  | error related => exact .error (weaker related)

/-- Two scans of one list stay related as long as every step does. A step may use
that the left scan got there. -/
theorem foldlM_related {τ : Type} {step : σ → β → Except σ σ} {step' : τ → β → Except τ τ}
    (Rel : σ → τ → Prop) (items : List β) (start : σ) (start' : τ) (initial : Rel start start')
    (steps : ∀ before item after state state', items = before ++ item :: after →
      before.foldlM step start = .ok state → Rel state state' →
      Related Rel (step state item) (step' state' item)) :
    Related Rel (items.foldlM step start) (items.foldlM step' start') := by
  induction items generalizing start start' with
  | nil => exact .ok initial
  | cons item rest ih =>
    rw [List.foldlM_cons, List.foldlM_cons]
    have first := steps [] item rest start start' rfl rfl initial
    generalize left : step start item = result at first
    generalize step' start' item = result' at first
    cases first with
    | error related => exact .error related
    | ok related =>
      refine ih _ _ related (fun before later after state state' split reached => ?_)
      refine steps (item :: before) later after state state' ?_ ?_
      · rw [split]
        rfl
      · rw [List.foldlM_cons, left]
        exact reached

end Tair.Library.Scan
