/-
Programs that read a buffer. A program takes bytes off its front, after a look at how many are
left or without one, and ends with a value, in a refusal, or in a misuse.
-/

import Mathlib

namespace Tair.Library

/-- What a program must not do: read behind the end, copy a negative number of bytes, move back,
write behind the end of an array of its own, or end in a failed assertion or an exception. -/
inductive Misuse where
  | past
  | negative
  | backwards
  | overflow
  | aborted
deriving DecidableEq, Repr

inductive Reader (α : Type) where
  | done (value : α)
  | refuse
  | misuse (kind : Misuse)
  /-- Takes bytes without a look at how many are left. -/
  | take (count : Nat) (next : List UInt8 → Reader α)
  /-- Refuses unless that many bytes are left. -/
  | need (count : Nat) (next : Reader α)
  /-- Copies bytes if there are enough. -/
  | copy (count : Int) (next : Option (List UInt8) → Reader α)
  /-- Takes that many bytes or all that are left. -/
  | upTo (count : Int) (next : List UInt8 → Reader α)
  /-- Asks whether that many bytes are left. -/
  | probe (count : Nat) (next : Bool → Reader α)

/-- How a program ends, with the bytes that are left. -/
inductive Reading (α : Type) where
  | done (value : α) (rest : List UInt8)
  | refused (rest : List UInt8)
  | misused (kind : Misuse)
deriving DecidableEq, Repr

namespace Reading

variable {α β : Type}

def andThen (reading : Reading α) (next : α → List UInt8 → Reading β) : Reading β :=
  match reading with
  | .done value rest => next value rest
  | .refused rest => .refused rest
  | .misused kind => .misused kind

def map (change : α → β) : Reading α → Reading β
  | .done value rest => .done (change value) rest
  | .refused rest => .refused rest
  | .misused kind => .misused kind

def value? : Reading α → Option α
  | .done value _ => some value
  | _ => none

/-- The buffer was not misused, and a value comes with so many bytes behind it. -/
def Leaves (count : Nat) : Reading α → Prop
  | .done _ rest => count ≤ rest.length
  | .refused _ => True
  | .misused _ => False

end Reading

namespace Reader

variable {α β : Type}

def bind : Reader α → (α → Reader β) → Reader β
  | .done value, next => next value
  | .refuse, _ => .refuse
  | .misuse kind, _ => .misuse kind
  | .take count rest, next => .take count fun bytes => (rest bytes).bind next
  | .need count rest, next => .need count (rest.bind next)
  | .copy count rest, next => .copy count fun bytes => (rest bytes).bind next
  | .upTo count rest, next => .upTo count fun bytes => (rest bytes).bind next
  | .probe count rest, next => .probe count fun there => (rest there).bind next

instance : Monad Reader where
  pure := .done
  bind := bind

def run : Reader α → List UInt8 → Reading α
  | .done value, bytes => .done value bytes
  | .refuse, bytes => .refused bytes
  | .misuse kind, _ => .misused kind
  | .take count next, bytes =>
    if count ≤ bytes.length then (next (bytes.take count)).run (bytes.drop count)
    else .misused .past
  | .need count next, bytes =>
    if count ≤ bytes.length then next.run bytes else .refused bytes
  | .copy count next, bytes =>
    if count < 0 then .misused .negative
    else if count.toNat ≤ bytes.length then
      (next (some (bytes.take count.toNat))).run (bytes.drop count.toNat)
    else (next none).run bytes
  | .upTo count next, bytes =>
    if count < 0 then .misused .backwards
    else (next (bytes.take count.toNat)).run (bytes.drop count.toNat)
  | .probe count next, bytes => (next (decide (count ≤ bytes.length))).run bytes

@[simp]
theorem pure_eq (value : α) : (pure value : Reader α) = .done value := rfl

@[simp]
theorem run_done (value : α) (bytes : List UInt8) :
    (Reader.done value).run bytes = .done value bytes := rfl

theorem run_bind (first : Reader α) (next : α → Reader β) (bytes : List UInt8) :
    (first >>= next).run bytes =
      (first.run bytes).andThen fun value rest => (next value).run rest := by
  change (first.bind next).run bytes = _
  induction first generalizing bytes with
  | done value => rfl
  | refuse => rfl
  | misuse kind => rfl
  | take count rest ih =>
    rw [bind, run, run]
    split_ifs
    · exact ih _ _
    · rfl
  | need count rest ih =>
    rw [bind, run, run]
    split_ifs
    · exact ih _
    · rfl
  | copy count rest ih =>
    rw [bind, run, run]
    split_ifs
    · rfl
    · exact ih _ _
    · exact ih _ _
  | upTo count rest ih =>
    rw [bind, run, run]
    split_ifs
    · rfl
    · exact ih _ _
  | probe count rest ih => exact ih _ _

theorem run_bind_of_done {first : Reader α} {next : α → Reader β} {bytes rest : List UInt8}
    {value : α} (ends : first.run bytes = .done value rest) :
    (first >>= next).run bytes = (next value).run rest := by
  rw [run_bind, ends]
  rfl

theorem run_map (change : α → β) (reader : Reader α) (bytes : List UInt8) :
    (change <$> reader).run bytes = (reader.run bytes).map change := by
  change (reader >>= fun value => .done (change value)).run bytes = _
  rw [run_bind]
  cases reader.run bytes with
  | done value rest => rfl
  | refused rest => rfl
  | misused kind => rfl

/-! ### Programs that never misuse a buffer -/

/-- On a buffer of at least `known` bytes there is no misuse, and `left` bytes remain. -/
def Careful (reader : Reader α) (known left : Nat) : Prop :=
  ∀ bytes : List UInt8, known ≤ bytes.length → (reader.run bytes).Leaves left

theorem careful_done (value : α) (known : Nat) : (Reader.done value).Careful known known :=
  fun _ enough => enough

theorem careful_refuse (known left : Nat) : (Reader.refuse : Reader α).Careful known left :=
  fun _ _ => trivial

theorem Careful.bind {first : Reader α} {next : α → Reader β} {known between left : Nat}
    (careful : first.Careful known between) (after : ∀ value, (next value).Careful between left) :
    (first >>= next).Careful known left := by
  intro bytes enough
  have leaves := careful bytes enough
  rw [run_bind]
  cases ends : first.run bytes with
  | done value rest =>
    rw [ends] at leaves
    exact after value rest leaves
  | refused rest => trivial
  | misused kind =>
    rw [ends] at leaves
    exact leaves

theorem Careful.mono {reader : Reader α} {known left less : Nat}
    (careful : reader.Careful known left) (fewer : less ≤ left) : reader.Careful known less := by
  intro bytes enough
  have leaves := careful bytes enough
  cases ends : reader.run bytes with
  | done value rest =>
    rw [ends] at leaves
    exact fewer.trans leaves
  | refused rest => trivial
  | misused kind =>
    rw [ends] at leaves
    exact leaves

theorem Careful.map {reader : Reader α} {known left : Nat} (careful : reader.Careful known left)
    (change : α → β) : (change <$> reader).Careful known left :=
  careful.bind fun value => careful_done (change value) left

theorem careful_need {count known left : Nat} {next : Reader α}
    (careful : next.Careful (max known count) left) :
    (Reader.need count next).Careful known left := by
  intro bytes enough
  rw [run]
  split_ifs with there
  · exact careful bytes (Nat.max_le.mpr ⟨enough, there⟩)
  · trivial

theorem careful_take {count known left : Nat} {next : List UInt8 → Reader α}
    (there : count ≤ known) (careful : ∀ bytes, (next bytes).Careful (known - count) left) :
    (Reader.take count next).Careful known left := by
  intro bytes enough
  rw [run, if_pos (there.trans enough)]
  apply careful
  rw [List.length_drop]
  omega

theorem careful_copy {count : Int} {known left : Nat} {next : Option (List UInt8) → Reader α}
    (pos : 0 ≤ count) (careful : ∀ bytes, (next bytes).Careful (known - count.toNat) left) :
    (Reader.copy count next).Careful known left := by
  intro bytes enough
  rw [run, if_neg (by omega)]
  split_ifs with there
  · apply careful
    rw [List.length_drop]
    omega
  · apply careful
    omega

end Reader

end Tair.Library
