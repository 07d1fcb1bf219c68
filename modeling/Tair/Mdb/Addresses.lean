/-
Where ids lead to. An item is found by the page, the slab size and the offset in its id. Within the
limits of an id that is a slot of its page. A slab size of a megabyte and more loses bits, and all
ids but the first one of a page then lead into the middle of a slot.
-/

import Tair.Mdb.Accounts

namespace Tair.Mdb

open MdbManager Tair.Library

/-- `ITEM_ADDR`, counted from the first slot of the page. -/
def place (id : Nat) : Nat := slabSize id * pageOffset id

namespace MdbManager

variable (manager : MdbManager) (slab page : Nat)

/-- The `mdb_item` at a place of a page. A slot has one at its start, and what was not written
behind it is zero. -/
def headerAt (place : Nat) : Option MdbItem :=
  let size := (manager.slabs slab).slabSize
  let item := manager.items ⟨page, place / size⟩
  if (manager.slabs slab).perSlab ≤ place / size then none
  else if place % size = 0 then some item
  else if mdbItemSize + item.data.length ≤ place % size ∧ place % size + mdbItemSize ≤ size then
    some default
  else none

/-- The free slots of a page, as `h_next` leads from one to the other. -/
def freeItems : Nat → Nat → List MdbItem
  | 0, _ => []
  | count + 1, id =>
    if id = 0 then []
    else (manager.headerAt slab page (place id)).elim [] fun item =>
      item :: freeItems count item.hNext

/-- What `alloc_new_item` asserts of the item that it takes from a page. -/
def freeHeadFits : Bool :=
  (manager.headerAt slab page (place (manager.pages page).freeHead)).any fun item =>
    item.itemId = (manager.pages page).freeHead

end MdbManager

/-- The ids of a page lead to its slots. -/
theorem headerAt_itemId {param : MdbParam} {mdb : MdbManager} {slab page offset : Nat}
    (among : (mdb.slabs slab).slabSize ∈ param.slabSizes)
    (slots : (mdb.slabs slab).perSlab = param.room / (mdb.slabs slab).slabSize)
    (inside : offset < (mdb.slabs slab).perSlab) :
    mdb.headerAt slab page (place (itemId (mdb.slabs slab).slabSize offset page slab)) =
      some (mdb.items ⟨page, offset⟩) := by
  have large := (MdbConfig.of_mem_slabSizes among).1
  have limit := param.pageSize_le
  unfold mdbItemSize at large
  unfold MdbManager.headerAt
  rw [slots] at inside ⊢
  generalize (mdb.slabs slab).slabSize = size at *
  have few : offset < 2 ^ 16 :=
    inside.trans (Nat.div_lt_of_lt_mul (by unfold MdbConfig.room pageInfoSize; omega))
  have isPlace : place (itemId size offset page slab) = size * offset := by
    unfold place
    rw [slabSize_itemId, show pageOffset (itemId size offset page slab) = offset by
      unfold pageOffset itemId; omega]
    by_cases small : size < 2 ^ 20
    · rw [Nat.mod_eq_of_lt small]
    · have one : param.room / size < 2 :=
        Nat.div_lt_of_lt_mul (by unfold MdbConfig.room pageInfoSize; omega)
      have first : offset = 0 := by omega
      rw [first, Nat.mul_zero, Nat.mul_zero]
  dsimp only
  rw [isPlace, Nat.mul_div_cancel_left _ (by omega), Nat.mul_mod_right,
    if_neg (Nat.not_le.mpr inside), if_pos rfl]

/-- In a new engine a page with three free slots has two of them in its chain. -/
theorem free_chain_short : ∃ start page, initialized hugePages = .ok start ∧
    (start.slabs 0).freePages = page ∧ page ≠ 0 ∧ (start.pages page).freeNr = 3 ∧
    (start.freeItems 0 page 4 (start.pages page).freeHead).length = 2 := by
  have ran : ∃ start, initialized hugePages = .ok start ∧
      (start.slabs 0).freePages ≠ 0 ∧ (start.pages (start.slabs 0).freePages).freeNr = 3 ∧
      (start.freeItems 0 (start.slabs 0).freePages 4
        (start.pages (start.slabs 0).freePages).freeHead).length = 2 := by
    decide +kernel
  obtain ⟨start, begun, facts⟩ := ran
  exact ⟨start, _, begun, rfl, facts⟩

/-- After one put the page has two free slots more, and the next put stops at an assertion. -/
theorem free_head_astray : ∃ start state, initialized hugePages = .ok start ∧
    start.Serves state ∧
    (∀ slab, slab < start.slabsCount → (start.slabs slab).freePagesNo = 1) ∧
    (state.slabs 0).partialPagesNo = 1 ∧
    (state.pages (state.slabs 0).getPartialPageId).freeNr = 2 ∧
    state.freeHeadFits 0 (state.slabs 0).getPartialPageId = false := by
  have ran : ∃ start, initialized hugePages = .ok start ∧
      (∀ slab, slab < start.slabsCount → (start.slabs slab).freePagesNo = 1) ∧
      ∃ state, guardedRun MdbManager.step (fun manager operation => operation.Served manager)
        [putOf [1, 0, 65] [7]] start = some state ∧
      (state.slabs 0).partialPagesNo = 1 ∧
      (state.pages (state.slabs 0).getPartialPageId).freeNr = 2 ∧
      state.freeHeadFits 0 (state.slabs 0).getPartialPageId = false := by
    decide +kernel
  obtain ⟨start, begun, given, state, run, facts⟩ := ran
  exact ⟨start, state, begun, .of_guardedRun _ .start run, given, facts⟩

end Tair.Mdb
