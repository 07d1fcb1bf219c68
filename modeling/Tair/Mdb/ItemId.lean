/-
Item ids of the memory engine. Slab size, place in the page, page, slab and four flag bits are
packed into one word. Links are such words, followed by page and place alone.
-/

import Mathlib

namespace Tair.Mdb

variable (id : Nat)

def slabSize : Nat := id % 2 ^ 20

def pageOffset : Nat := id / 2 ^ 20 % 2 ^ 16

def pageId : Nat := id / 2 ^ 36 % 2 ^ 16

def slabId : Nat := id / 2 ^ 52 % 2 ^ 8

def itemFlags : Nat := id / 2 ^ 60 % 2 ^ 4

def clearFlags : Nat := id % 2 ^ 60

/-- Bits are only ever added. -/
def setItemFlags (id value : Nat) : Nat :=
  id % 2 ^ 60 + (itemFlags id ||| value % 2 ^ 4) * 2 ^ 60

variable (size offset page slab : Nat)

def itemId : Nat :=
  slab % 2 ^ 8 * 2 ^ 52 + page % 2 ^ 16 * 2 ^ 36 + offset % 2 ^ 16 * 2 ^ 20 + size % 2 ^ 20

def itemIdEqual (lhs rhs : Nat) : Bool :=
  slabId lhs = slabId rhs ∧ pageId lhs = pageId rhs ∧ pageOffset lhs = pageOffset rhs ∧
    slabSize lhs = slabSize rhs

/-- `flag & TAIR_ITEM_FLAG_DELETED`, of whatever word is handed in. -/
def isDeleted (flag : Nat) : Bool := flag.testBit 1

def tairItemFlagDeleted : Nat := 2

structure Slot where
  page : Nat
  offset : Nat
deriving DecidableEq, Repr

def slotOf : Slot := ⟨pageId id, pageOffset id⟩

/-- Ids are never 0, so that 0 ends a list. -/
def link : Option Slot := if id = 0 then none else some (slotOf id)

@[simp]
theorem link_zero : link 0 = none := rfl

theorem link_eq_none {id : Nat} : link id = none ↔ id = 0 := by
  unfold link
  split
  · simp [*]
  · simp [*]

theorem link_eq_some {id : Nat} {slot : Slot} : link id = some slot ↔ id ≠ 0 ∧ slotOf id = slot := by
  unfold link
  split
  · simp [*]
  · simp [*]

theorem link_of_ne {id : Nat} (real : id ≠ 0) : link id = some (slotOf id) :=
  if_neg real

theorem slotOf_clearFlags : slotOf (clearFlags id) = slotOf id := by
  unfold slotOf pageId pageOffset clearFlags
  congr 1
  · omega
  · omega

theorem slotOf_setItemFlags (id value : Nat) : slotOf (setItemFlags id value) = slotOf id := by
  unfold slotOf pageId pageOffset setItemFlags
  generalize itemFlags id ||| value % 2 ^ 4 = flags
  congr 1
  · omega
  · omega

theorem slabId_clearFlags : slabId (clearFlags id) = slabId id := by
  unfold slabId clearFlags
  omega

theorem slabId_setItemFlags (id value : Nat) : slabId (setItemFlags id value) = slabId id := by
  unfold slabId setItemFlags
  generalize itemFlags id ||| value % 2 ^ 4 = flags
  omega

theorem slabSize_clearFlags : slabSize (clearFlags id) = slabSize id := by
  unfold slabSize clearFlags
  omega

theorem slabSize_setItemFlags (id value : Nat) :
    slabSize (setItemFlags id value) = slabSize id := by
  unfold slabSize setItemFlags
  generalize itemFlags id ||| value % 2 ^ 4 = flags
  omega

@[simp]
theorem itemFlags_clearFlags : itemFlags (clearFlags id) = 0 := by
  unfold itemFlags clearFlags
  omega

theorem itemFlags_setItemFlags {id : Nat} (clean : itemFlags id = 0) (value : Nat) :
    itemFlags (setItemFlags id value) = value % 2 ^ 4 := by
  unfold setItemFlags
  rw [clean, Nat.zero_or]
  unfold itemFlags
  omega

theorem slotOf_itemId {size offset page slab : Nat} (offset_lt : offset < 2 ^ 16)
    (page_lt : page < 2 ^ 16) : slotOf (itemId size offset page slab) = ⟨page, offset⟩ := by
  unfold slotOf pageId pageOffset itemId
  congr 1
  · omega
  · omega

theorem pageId_itemId : pageId (itemId size offset page slab) = page % 2 ^ 16 := by
  unfold pageId itemId
  omega

theorem slabId_itemId {size offset page slab : Nat} (slab_lt : slab < 2 ^ 8) :
    slabId (itemId size offset page slab) = slab := by
  unfold slabId itemId
  omega

theorem slabSize_itemId : slabSize (itemId size offset page slab) = size % 2 ^ 20 := by
  unfold slabSize itemId
  omega

theorem itemFlags_itemId : itemFlags (itemId size offset page slab) = 0 := by
  unfold itemFlags itemId
  omega

def OfSlab (slab size id : Nat) : Prop :=
  id ≠ 0 → slabId id = slab ∧ slabSize id = size

theorem itemIdEqual_iff {slab size lhs rhs : Nat} (left : OfSlab slab size lhs)
    (right : OfSlab slab size rhs) (real : lhs ≠ 0) (page : pageId lhs ≠ 0) :
    itemIdEqual lhs rhs = true ↔ link rhs = some (slotOf lhs) := by
  obtain ⟨leftSlab, leftSize⟩ := left real
  rw [link_eq_some]
  unfold itemIdEqual
  rw [decide_eq_true_iff]
  constructor
  · rintro ⟨-, samePage, sameOffset, -⟩
    refine ⟨?_, ?_⟩
    · intro zero
      rw [zero] at samePage
      exact page samePage
    · unfold slotOf
      rw [samePage, sameOffset]
  · rintro ⟨rightNonzero, same⟩
    obtain ⟨rightSlab, rightSize⟩ := right rightNonzero
    have samePage : pageId rhs = pageId lhs := congrArg Slot.page same
    have sameOffset : pageOffset rhs = pageOffset lhs := congrArg Slot.offset same
    exact ⟨leftSlab.trans rightSlab.symm, samePage.symm, sameOffset.symm,
      leftSize.trans rightSize.symm⟩

end Tair.Mdb
