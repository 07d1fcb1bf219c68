/-
Lists that grow at one of their ends. Read from the oldest element to the newest, pushing,
dropping the oldest and keeping the newest elements are the same operations at both ends.
-/

import Mathlib

namespace Tair.Library

/-- The end at which a list grows. -/
inductive End where
  | head
  | tail
deriving DecidableEq, Repr

namespace End

variable {α β : Type}

/-- The elements from the oldest to the newest. -/
def aged : End → List α → List α
  | .head, items => items.reverse
  | .tail, items => items

def push : End → List α → α → List α
  | .head, items, item => item :: items
  | .tail, items, item => items ++ [item]

/-- Everything but the oldest elements. -/
def dropOldest : End → Nat → List α → List α
  | .head, count, items => items.take (items.length - count)
  | .tail, count, items => items.drop count

/-- The newest elements. -/
def newest (growing : End) (count : Nat) (items : List α) : List α :=
  growing.dropOldest (items.length - count) items

def pushAll (growing : End) (items new : List α) : List α := new.foldl growing.push items

section

variable (grow : End)

include grow

@[simp]
theorem length_aged (items : List α) : (grow.aged items).length = items.length := by
  cases grow with
  | head => exact List.length_reverse
  | tail => rfl

theorem aged_injective {left right : List α} (same : grow.aged left = grow.aged right) :
    left = right := by
  cases grow with
  | head => exact List.reverse_injective same
  | tail => exact same

@[simp]
theorem aged_push (items : List α) (item : α) :
    grow.aged (grow.push items item) = grow.aged items ++ [item] := by
  cases grow with
  | head => exact List.reverse_cons
  | tail => rfl

@[simp]
theorem aged_dropOldest (count : Nat) (items : List α) :
    grow.aged (grow.dropOldest count items) = (grow.aged items).drop count := by
  cases grow with
  | head => exact (List.drop_reverse ..).symm
  | tail => rfl

@[simp]
theorem aged_pushAll (items new : List α) :
    grow.aged (grow.pushAll items new) = grow.aged items ++ new := by
  induction new generalizing items with
  | nil => exact (List.append_nil _).symm
  | cons item rest ih =>
    change grow.aged (grow.pushAll (grow.push items item) rest) = _
    rw [ih, aged_push, List.append_assoc]
    rfl

@[simp]
theorem length_pushAll (items new : List α) :
    (grow.pushAll items new).length = items.length + new.length := by
  rw [← length_aged grow, aged_pushAll, List.length_append, length_aged]

theorem map_push (map : α → β) (items : List α) (item : α) :
    (grow.push items item).map map = grow.push (items.map map) (map item) := by
  cases grow with
  | head => rfl
  | tail => exact List.map_append

theorem map_dropOldest (map : α → β) (count : Nat) (items : List α) :
    (grow.dropOldest count items).map map = grow.dropOldest count (items.map map) := by
  cases grow with
  | head =>
    change (items.take _).map map = (items.map map).take _
    rw [List.map_take, List.length_map]
  | tail => exact List.map_drop

end

end End

end Tair.Library
