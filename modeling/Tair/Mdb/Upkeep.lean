/-
What the steps of the engine do to the pool, to the numbers of pages and to the books of the
areas. Most steps only move links; a slab never gives up its last page.
-/

import Tair.Mdb.Eviction

namespace Tair.Mdb

open MdbManager Tair.Common Tair.Library

def SlabManager.pagesOwned (slab : SlabManager) : Int :=
  slab.freePagesNo + slab.fullPagesNo + slab.partialPagesNo

/-- The sizes of a slab, its free pages and the others. -/
def SlabManager.stock (slab : SlabManager) : SlabManager :=
  { slab.frame with
    freePagesNo := slab.freePagesNo
    fullPagesNo := slab.fullPagesNo + slab.partialPagesNo }

/-- A page that fills up or gets a free slot is still one of the others. -/
theorem SlabManager.stock_shift (slab : SlabManager) (count : Int) :
    { slab with
      fullPagesNo := slab.fullPagesNo + count
      partialPagesNo := slab.partialPagesNo - count }.stock = slab.stock := by
  unfold stock
  rw [show slab.fullPagesNo + count + (slab.partialPagesNo - count) = _ from
    add_add_sub_cancel ..]
  rfl

namespace MdbManager

variable (manager : MdbManager)

/-- The sizes of the slabs and the books of the areas. -/
def outline : MdbManager :=
  { manager.frame with
    pool := ⟨0, 0, 0, fun _ => false⟩
    pages := fun _ => default
    items := fun _ => default
    areaStat := manager.areaStat }

def stock : MdbManager :=
  { manager.outline with
    pool := manager.pool
    pages := fun page => { manager.pages page with next := 0, prev := 0, freeHead := 0 }
    slabs := fun slab => (manager.slabs slab).stock }

end MdbManager

def Relinked (manager next : MdbManager) : Prop := next.stock = manager.stock

namespace Relinked

variable {mdb middle next : MdbManager}

theorem trans (first : Relinked mdb middle) (second : Relinked middle next) : Relinked mdb next :=
  Eq.trans second first

section

variable (relinked : Relinked mdb next)

include relinked

theorem pool : next.pool = mdb.pool := congrArg (·.pool) relinked

theorem areaStat : next.areaStat = mdb.areaStat := congrArg (·.areaStat) relinked

theorem perSlab (slab : Nat) : (next.slabs slab).perSlab = (mdb.slabs slab).perSlab :=
  congrArg (fun manager => (manager.slabs slab).perSlab) relinked

theorem free (slab : Nat) : (next.slabs slab).freePagesNo = (mdb.slabs slab).freePagesNo :=
  congrArg (fun manager => (manager.slabs slab).freePagesNo) relinked

theorem owned (slab : Nat) : (next.slabs slab).pagesOwned = (mdb.slabs slab).pagesOwned := by
  have others := congrArg (fun manager => (manager.slabs slab).fullPagesNo) relinked
  unfold SlabManager.pagesOwned
  rw [relinked.free, add_assoc, add_assoc]
  exact congrArg _ others

theorem id (page : Nat) : (next.pages page).id = (mdb.pages page).id :=
  congrArg (fun manager => (manager.pages page).id) relinked

theorem freeNr (page : Nat) : (next.pages page).freeNr = (mdb.pages page).freeNr :=
  congrArg (fun manager => (manager.pages page).freeNr) relinked

end

variable (mdb) (slab page : Nat) (slot : Slot)

theorem modifyItem (change : MdbItem → MdbItem) : Relinked mdb (mdb.modifyItem slot change) := rfl

theorem modifyLinked (id : Nat) (change : MdbItem → MdbItem) :
    Relinked mdb (mdb.modifyLinked id change) := by
  unfold MdbManager.modifyLinked
  split
  · rfl
  · exact modifyItem mdb (slotOf id) change

theorem modifyPage {change : PageInfo → PageInfo} (id : ∀ info, (change info).id = info.id)
    (freeNr : ∀ info, (change info).freeNr = info.freeNr) :
    Relinked mdb (mdb.modifyPage page change) := by
  refine congrArg (fun pages => { mdb.stock with pages }) (funext fun other => ?_)
  unfold MdbManager.modifyPage
  by_cases same : other = page
  · simp only [same, Function.update_self, id, freeNr]
  · simp only [Function.update_of_ne same]

theorem modifyLinkedPage {change : PageInfo → PageInfo} (id : ∀ info, (change info).id = info.id)
    (freeNr : ∀ info, (change info).freeNr = info.freeNr) :
    Relinked mdb (mdb.modifyLinkedPage page change) := by
  unfold MdbManager.modifyLinkedPage
  split
  · rfl
  · exact modifyPage mdb page id freeNr

theorem modifySlab {change : SlabManager → SlabManager} (keeps : ∀ s, (change s).stock = s.stock) :
    Relinked mdb (mdb.modifySlab slab change) :=
  congrArg (fun slabs => ({ mdb.stock with slabs } : MdbManager))
    (funext (slabs_keep keeps mdb slab))

theorem itemTotalCount (change : UInt64 → UInt64) :
    Relinked mdb (mdb.modifySlab slab fun s =>
      { s with itemTotalCount := change s.itemTotalCount }) :=
  modifySlab mdb slab fun _ => rfl

theorem setItemList (area : Nat) (list : ItemList) :
    Relinked mdb (mdb.setItemList slab area list) :=
  modifySlab mdb slab fun _ => rfl

theorem linkItem (area : Nat) : Relinked mdb (mdb.linkItem slab slot area) := by
  unfold MdbManager.linkItem
  exact ((modifyItem mdb slot _).trans (modifyLinked _ _ _)).trans (setItemList _ slab area _)

theorem unlinkItem : Relinked mdb (mdb.unlinkItem slab slot) := by
  unfold MdbManager.unlinkItem
  exact ((setItemList mdb slab _ _).trans (modifyLinked _ _ _)).trans (modifyLinked _ _ _)

theorem updateItem (area : Nat) : Relinked mdb (mdb.updateItem slab slot area) :=
  (unlinkItem mdb slab slot).trans (linkItem _ slab slot area)

theorem evict (area : Nat) : Relinked mdb (mdb.evict slab slot area) :=
  (modifyItem mdb slot _).trans (updateItem _ slab slot area)

theorem setPageHead (list : PageList) (head : Nat) :
    Relinked mdb (mdb.modifySlab slab fun s => s.setPageHead list head) := by
  cases list with
  | full | free | part =>
    exact modifySlab mdb slab fun _ => rfl

theorem linkPage (list : PageList) : Relinked mdb (mdb.linkPage slab page list) := by
  unfold MdbManager.linkPage
  refine Relinked.trans (Relinked.trans (modifyPage mdb page ?_ ?_)
    (modifyLinkedPage _ _ ?_ ?_)) (setPageHead _ slab list _)
  all_goals
    intro info
    rfl

theorem unlinkPage (list : PageList) : Relinked mdb (mdb.unlinkPage slab page list) := by
  unfold MdbManager.unlinkPage
  dsimp only
  refine Relinked.trans (Relinked.trans (Relinked.trans ?_ (modifyLinkedPage _ _ ?_ ?_))
    (modifyLinkedPage _ _ ?_ ?_)) (modifyPage _ page ?_ ?_)
  · split
    · exact setPageHead mdb slab list _
    · rfl
  all_goals
    intro info
    rfl

theorem bypass (index : Nat) (prior : Option Slot) :
    Relinked mdb (mdb.bypass index slot prior) := by
  rw [bypass_eq]
  rfl

theorem insert : Relinked mdb (mdb.insert slot) := by
  rw [insert_eq]
  rfl

variable {mdb slot}

theorem remove (gone : mdb.remove slot = .ok next) : Relinked mdb next := by
  unfold MdbManager.remove at gone
  obtain ⟨found, -, rfl⟩ := ok_of_map gone
  cases found with
  | none => rfl
  | some place => exact bypass mdb place.1 _ place.2

end Relinked

/-! ### Pages that come and go -/

structure Upkeep (manager next : MdbManager) (slab : Nat) (owned free : Int) (pool : MemPool) :
    Prop where
  pool : next.pool = pool
  outline : next.outline = manager.outline
  owned : ∀ other, (next.slabs other).pagesOwned =
    (manager.slabs other).pagesOwned + if slab = other then owned else 0
  free : ∀ other, (next.slabs other).freePagesNo =
    (manager.slabs other).freePagesNo + if slab = other then free else 0

namespace Upkeep

variable {mdb middle next : MdbManager} {slab : Nat} {owned free moreOwned moreFree : Int}
  {given later : MemPool}

section

variable (upkeep : Upkeep mdb next slab owned free given)

include upkeep

theorem slabsCount : next.slabsCount = mdb.slabsCount := congrArg (·.slabsCount) upkeep.outline

theorem bucketSize : next.bucketSize = mdb.bucketSize := congrArg (·.bucketSize) upkeep.outline

theorem areaStat : next.areaStat = mdb.areaStat := congrArg (·.areaStat) upkeep.outline

theorem slabSize (other : Nat) : (next.slabs other).slabSize = (mdb.slabs other).slabSize :=
  congrArg (fun manager => (manager.slabs other).slabSize) upkeep.outline

theorem perSlab (other : Nat) : (next.slabs other).perSlab = (mdb.slabs other).perSlab :=
  congrArg (fun manager => (manager.slabs other).perSlab) upkeep.outline

end

theorem trans (first : Upkeep mdb middle slab owned free given)
    (second : Upkeep middle next slab moreOwned moreFree later) :
    Upkeep mdb next slab (owned + moreOwned) (free + moreFree) later where
  pool := second.pool
  outline := second.outline.trans first.outline
  owned other := by
    rw [second.owned, first.owned]
    split_ifs <;> omega
  free other := by
    rw [second.free, first.free]
    split_ifs <;> omega

theorem of_same (pool : next.pool = given) (outline : next.outline = mdb.outline)
    (owned : ∀ other, (next.slabs other).pagesOwned = (mdb.slabs other).pagesOwned)
    (free : ∀ other, (next.slabs other).freePagesNo = (mdb.slabs other).freePagesNo) :
    Upkeep mdb next slab 0 0 given := by
  refine ⟨pool, outline, fun other => ?_, fun other => ?_⟩
  · rw [owned, ite_self, add_zero]
  · rw [free, ite_self, add_zero]

theorem of_relinked (relinked : Relinked mdb next) (slab : Nat) :
    Upkeep mdb next slab 0 0 mdb.pool := by
  have same : next.outline = mdb.outline := show next.stock.outline = _ by rw [relinked]; rfl
  exact of_same relinked.pool same relinked.owned relinked.free

theorem after (relinked : Relinked mdb middle) (upkeep : Upkeep middle next slab owned free given) :
    Upkeep mdb next slab owned free given := by
  have both := (of_relinked relinked slab).trans upkeep
  rwa [zero_add, zero_add] at both

theorem relinked (upkeep : Upkeep mdb middle slab owned free given)
    (relinked : Relinked middle next) : Upkeep mdb next slab owned free given := by
  have both := upkeep.trans (of_relinked relinked slab)
  rwa [add_zero, add_zero, upkeep.pool] at both

theorem modifySlab {change : SlabManager → SlabManager} (mdb : MdbManager) (slab : Nat)
    (frame : ∀ s, (change s).frame = s.frame)
    (ownedIs : ∀ s, (change s).pagesOwned = s.pagesOwned + owned)
    (freeIs : ∀ s, (change s).freePagesNo = s.freePagesNo + free) :
    Upkeep mdb (mdb.modifySlab slab change) slab owned free mdb.pool := by
  refine ⟨rfl, congrArg (fun slabs => ({ mdb.outline with slabs } : MdbManager))
    (funext (slabs_keep frame mdb slab)), ?_, ?_⟩
  all_goals
    intro other
    rw [slabs_modifySlab]
    split
  · exact ownedIs _
  · exact (add_zero _).symm
  · exact freeIs _
  · exact (add_zero _).symm

theorem addFree (mdb : MdbManager) (slab : Nat) (count : Int) :
    Upkeep mdb (mdb.modifySlab slab fun s =>
      { s with freePagesNo := s.freePagesNo + count }) slab count count mdb.pool := by
  refine modifySlab mdb slab (fun _ => rfl) (fun s => ?_) (fun _ => rfl)
  unfold SlabManager.pagesOwned
  dsimp only
  omega

theorem addPart (mdb : MdbManager) (slab : Nat) (count : Int) :
    Upkeep mdb (mdb.modifySlab slab fun s =>
      { s with partialPagesNo := s.partialPagesNo + count }) slab count 0 mdb.pool := by
  refine modifySlab mdb slab (fun _ => rfl) (fun s => ?_) (fun _ => (add_zero _).symm)
  unfold SlabManager.pagesOwned
  dsimp only
  omega

theorem modifyPage (mdb : MdbManager) (page : Nat) (change : PageInfo → PageInfo) (slab : Nat) :
    Upkeep mdb (mdb.modifyPage page change) slab 0 0 mdb.pool :=
  of_same rfl rfl (fun _ => rfl) (fun _ => rfl)

end Upkeep

inductive Freed (manager next : MdbManager) (slab page : Nat) : Prop
  | partly (more : (manager.pages page).freeNr + 1 ≠ (manager.slabs slab).perSlab)
      (upkeep : Upkeep manager next slab 0 0 manager.pool)
  | kept (emptied : (manager.pages page).freeNr + 1 = (manager.slabs slab).perSlab)
      (few : (manager.slabs slab).pagesOwned ≤ 2)
      (upkeep : Upkeep manager next slab 0 1 manager.pool)
  | returned (emptied : (manager.pages page).freeNr + 1 = (manager.slabs slab).perSlab)
      (many : 2 < (manager.slabs slab).pagesOwned)
      (upkeep : Upkeep manager next slab (-1) 0 (manager.pool.freePage (manager.pages page).id))

namespace MdbManager

variable (mdb : MdbManager) (slab page area : Nat) (slot : Slot)

theorem relinked_reopenPage : Relinked mdb (mdb.reopenPage slab page) := by
  unfold reopenPage
  split
  · exact (Relinked.unlinkPage mdb slab page .full).trans (Relinked.modifySlab _ slab
      fun s => SlabManager.stock_shift s (-1))
  · exact Relinked.unlinkPage mdb slab page _

theorem id_pushSlot : ((mdb.pushSlot slot).pages slot.page).id = (mdb.pages slot.page).id := by
  unfold pushSlot modifyPage
  dsimp only
  rw [Function.update_self]
  rfl

theorem upkeep_refilePage (freeNr : Nat) (isFreeNr : (mdb.pages page).freeNr = freeNr) :
    (freeNr ≠ (mdb.slabs slab).perSlab →
      Upkeep mdb (mdb.refilePage slab page) slab 0 0 mdb.pool) ∧
    (freeNr = (mdb.slabs slab).perSlab → (mdb.slabs slab).pagesOwned ≤ 2 →
      Upkeep mdb (mdb.refilePage slab page) slab 0 1 mdb.pool) ∧
    (freeNr = (mdb.slabs slab).perSlab → 2 < (mdb.slabs slab).pagesOwned →
      Upkeep mdb (mdb.refilePage slab page) slab (-1) 0
        (mdb.pool.freePage (mdb.pages page).id)) := by
  have bare : Upkeep mdb (mdb.modifySlab slab fun s =>
      { s with partialPagesNo := s.partialPagesNo - 1 }) slab (-1) 0 mdb.pool :=
    Upkeep.addPart mdb slab (-1)
  have left := bare.owned slab
  rw [if_pos rfl] at left
  unfold SlabManager.pagesOwned at left
  unfold refilePage
  rw [isFreeNr]
  dsimp only
  refine ⟨?_, ?_, ?_⟩
  · intro more
    rw [if_neg more]
    exact Upkeep.of_relinked (Relinked.linkPage mdb slab page _) slab
  · intro all few
    unfold SlabManager.pagesOwned at few
    rw [if_pos all, if_pos (by omega)]
    have linked := bare.relinked (Relinked.linkPage _ slab page .free)
    have counted := linked.trans (Upkeep.addFree _ slab 1)
    rwa [linked.pool] at counted
  · intro all many
    unfold SlabManager.pagesOwned at many
    rw [if_pos all, if_neg (by omega)]
    exact ⟨rfl, bare.outline, bare.owned, bare.free⟩

theorem freed_freeItem : Freed mdb (mdb.freeItem slab slot) slab slot.page := by
  obtain ⟨unlinked, isUnlinked⟩ : ∃ unlinked, (mdb.modifySlab slab (fun s =>
    { s with itemTotalCount := s.itemTotalCount - 1 })).unlinkItem slab slot = unlinked := ⟨_, rfl⟩
  obtain ⟨reopened, isReopened⟩ : ∃ reopened, unlinked.reopenPage slab slot.page = reopened :=
    ⟨_, rfl⟩
  have first : Relinked mdb unlinked := by
    rw [← isUnlinked]
    exact (Relinked.itemTotalCount mdb slab (· - 1)).trans (Relinked.unlinkItem _ slab slot)
  have second : Relinked unlinked reopened := by
    rw [← isReopened]
    exact relinked_reopenPage unlinked slab slot.page
  rw [freeItem_eq isUnlinked (by rw [isReopened]; exact second.freeNr _), isReopened]
  have opened := first.trans second
  have pushed : Upkeep mdb (reopened.pushSlot slot) slab 0 0 reopened.pool :=
    Upkeep.after (opened.trans (Relinked.modifyItem reopened slot _))
      (Upkeep.modifyPage _ slot.page _ slab)
  have count : ((reopened.pushSlot slot).pages slot.page).freeNr =
      (mdb.pages slot.page).freeNr + 1 := by
    rw [freeNr_pushSlot, opened.freeNr]
  have number : ((reopened.pushSlot slot).pages slot.page).id = (mdb.pages slot.page).id := by
    rw [id_pushSlot, opened.id]
  have pages := pushed.owned slab
  rw [ite_self, add_zero] at pages
  obtain ⟨partly, kept, gave⟩ := upkeep_refilePage (reopened.pushSlot slot) slab slot.page _ count
  rw [pushed.perSlab, pages, pushed.pool, opened.pool, number] at gave
  rw [pushed.perSlab, pages, pushed.pool, opened.pool] at kept
  rw [pushed.perSlab, pushed.pool, opened.pool] at partly
  by_cases all : (mdb.pages slot.page).freeNr + 1 = (mdb.slabs slab).perSlab
  · by_cases few : (mdb.slabs slab).pagesOwned ≤ 2
    · exact .kept all few (by simpa only [zero_add] using pushed.trans (kept all few))
    · exact .returned all (not_le.mp few)
        (by simpa only [zero_add] using pushed.trans (gave all (not_le.mp few)))
  · exact .partly all (by simpa only [zero_add] using pushed.trans (partly all))

end MdbManager

namespace Freed

variable {mdb middle next : MdbManager} {slab page : Nat}

theorem after (relinked : Relinked mdb middle) (freed : Freed middle next slab page) :
    Freed mdb next slab page := by
  cases freed with
  | partly more upkeep =>
    rw [relinked.freeNr, relinked.perSlab] at more
    rw [relinked.pool] at upkeep
    exact .partly more (Upkeep.after relinked upkeep)
  | kept bare few upkeep =>
    rw [relinked.freeNr, relinked.perSlab] at bare
    rw [relinked.owned] at few
    rw [relinked.pool] at upkeep
    exact .kept bare few (Upkeep.after relinked upkeep)
  | returned bare many upkeep =>
    rw [relinked.freeNr, relinked.perSlab] at bare
    rw [relinked.owned] at many
    rw [relinked.pool, relinked.id] at upkeep
    exact .returned bare many (Upkeep.after relinked upkeep)

theorem relinked (freed : Freed mdb middle slab page) (relinked : Relinked middle next) :
    Freed mdb next slab page := by
  cases freed with
  | partly more upkeep => exact .partly more (upkeep.relinked relinked)
  | kept bare few upkeep => exact .kept bare few (upkeep.relinked relinked)
  | returned bare many upkeep => exact .returned bare many (upkeep.relinked relinked)

end Freed

namespace MdbManager

variable (mdb : MdbManager) (slab page area : Nat) (slot : Slot)

theorem freed_removeItem {mdb next : MdbManager} {slot : Slot}
    (gone : mdb.removeItem slot = .ok next) :
    ∃ unhashed, (mdb.bookGone (mdb.items slot)).remove slot = .ok unhashed ∧
      Freed (mdb.bookGone (mdb.items slot)) next
        (slabId (clearFlags (unhashed.items slot).itemId)) slot.page := by
  unfold removeItem at gone
  obtain ⟨unhashed, hashRemoved, isNext⟩ := ok_of_map gone
  refine ⟨unhashed, hashRemoved, ?_⟩
  have unlinked := (Relinked.remove hashRemoved).trans (Relinked.modifyItem unhashed slot
    fun item => { item with itemId := clearFlags item.itemId })
  have freed := Freed.after unlinked (freed_freeItem (unhashed.modifyItem slot fun item =>
    { item with itemId := clearFlags item.itemId }) (slabId ((unhashed.modifyItem slot fun item =>
      { item with itemId := clearFlags item.itemId }).items slot).itemId) slot)
  rw [items_modifyItem_self] at freed
  dsimp only at freed isNext
  rw [items_modifyItem_self] at isNext
  rw [isNext]
  exact freed.relinked (Relinked.modifyItem _ slot _)

theorem upkeep_takeSlot : Upkeep mdb (mdb.takeSlot slab page area).1 slab 0 0 mdb.pool := by
  rw [takeSlot_eq]
  have filed : Relinked (mdb.popSlot page) ((mdb.popSlot page).filePage slab page
      ((mdb.pages page).freeNr - 1)) := by
    unfold filePage
    split
    · exact (Relinked.linkPage _ slab page .full).trans (Relinked.modifySlab _ slab
        fun s => SlabManager.stock_shift s 1)
    · exact Relinked.linkPage _ slab page _
  have popped : Upkeep mdb (mdb.popSlot page) slab 0 0 mdb.pool :=
    Upkeep.modifyPage mdb page _ slab
  exact ((popped.relinked filed).relinked (Relinked.itemTotalCount _ slab (· + 1))).relinked
    (Relinked.linkItem _ slab _ area)

end MdbManager

inductive Supplied (manager next : MdbManager) (slab : Nat) : Prop
  | page (free : Int) (upkeep : Upkeep manager next slab 0 free manager.pool)
  | pool (pool : MemPool) (index : Nat) (paged : manager.pool.allocPage = .ok (pool, some index))
      (upkeep : Upkeep manager next slab 1 0 pool)

namespace MdbManager

variable {mdb next : MdbManager} {slab area : Nat} {slot : Slot} {type : AllocType}
  {now : UInt32}

theorem supplied_allocNewItem (given : mdb.allocNewItem slab area = .ok (next, some slot)) :
    Supplied mdb next slab := by
  unfold allocNewItem at given
  dsimp only at given
  split at given
  · cases given
    have unlinked := Relinked.unlinkPage mdb slab (mdb.slabs slab).getPartialPageId
      (.part ((mdb.pages (mdb.slabs slab).getPartialPageId).freeNr / partialPageBucket))
    have taken := upkeep_takeSlot (mdb.unlinkPage slab (mdb.slabs slab).getPartialPageId
      (.part ((mdb.pages (mdb.slabs slab).getPartialPageId).freeNr / partialPageBucket)))
      slab (mdb.slabs slab).getPartialPageId area
    rw [unlinked.pool] at taken
    exact .page 0 (Upkeep.after unlinked taken)
  · split at given
    · cases given
      have unlinked := Relinked.unlinkPage mdb slab (mdb.slabs slab).freePages .free
      have opened : Upkeep mdb ((mdb.unlinkPage slab (mdb.slabs slab).freePages
          .free).modifySlab slab fun s => { s with
            freePagesNo := s.freePagesNo - 1
            partialPagesNo := s.partialPagesNo + 1 }) slab 0 (-1) mdb.pool := by
        rw [← unlinked.pool]
        refine Upkeep.after unlinked (Upkeep.modifySlab _ slab (fun _ => rfl) (fun s => ?_)
          (fun _ => rfl))
        unfold SlabManager.pagesOwned
        dsimp only
        omega
      have taken := opened.trans (upkeep_takeSlot _ slab (mdb.slabs slab).freePages area)
      rw [opened.pool, add_zero, add_zero] at taken
      exact .page (-1) taken
    · split at given
      · cases given
      · cases given
      next pool index paged =>
        cases given
        have fresh : Upkeep mdb (initPage { mdb with pool } slab index) slab 0 0 pool :=
          .of_same rfl rfl (fun _ => rfl) (fun _ => rfl)
        have counted := fresh.trans (Upkeep.addPart _ slab 1)
        have taken := counted.trans (upkeep_takeSlot _ slab index area)
        exact .pool pool index paged taken

theorem relinked_bookNew (mdb : MdbManager) (slab area : Nat) :
    Relinked mdb (mdb.bookNew slab area) :=
  Relinked.modifySlab mdb slab fun _ => rfl

theorem relinked_bookSelf (mdb : MdbManager) (slab : Nat) (type : AllocType) (exceed : Bool) :
    Relinked mdb (mdb.bookSelf slab type exceed) := by
  unfold bookSelf
  split
  · exact Relinked.modifySlab mdb slab fun _ => rfl
  · rfl

theorem relinked_bookAny (mdb : MdbManager) (slab area : Nat) (slot : Slot)
    (type : AllocType) : Relinked mdb (mdb.bookAny slab area slot type) := by
  unfold bookAny
  dsimp only
  refine Relinked.trans (Relinked.trans ?_ (Relinked.modifySlab _ slab ?_))
    (relinked_bookNew _ slab area)
  · split
    · exact Relinked.modifySlab mdb slab fun _ => rfl
    · rfl
  · exact fun _ => rfl

theorem relinked_evictSelf (result : mdb.evictSelf slab area now = some (next, slot, type)) :
    Relinked mdb next := by
  unfold evictSelf at result
  dsimp only at result
  split at result
  · cases result
  · split at result
    · cases result
      exact Relinked.evict mdb slab _ _
    · cases result
      exact Relinked.evict mdb slab _ _

theorem relinked_allocByEvictAny
    (result : mdb.allocByEvictAny slab area now = .ok (next, slot, type)) : Relinked mdb next := by
  unfold allocByEvictAny at result
  obtain ⟨⟨taken, ofSlot, ofType⟩, hit, same⟩ := ok_of_map result
  cases same
  unfold evictAny at hit
  dsimp only at hit
  split at hit
  · cases hit
  · cases hit
    refine ((Relinked.modifySlab mdb slab ?_).trans (Relinked.evict _ slab _ area)).trans
      (relinked_bookAny _ slab area _ _)
    exact fun _ => rfl

/-- A slot is taken from the pages of the slab, from a new page or from another item. -/
theorem supplied_allocItem (result : mdb.allocItem slab area now = .ok (next, slot, type)) :
    Supplied mdb next slab := by
  cases taken_allocItem result with
  | new hit =>
    cases supplied_allocNewItem hit with
    | page free upkeep => exact .page free (upkeep.relinked (relinked_bookNew _ slab area))
    | pool pool index paged upkeep =>
      exact .pool pool index paged (upkeep.relinked (relinked_bookNew _ slab area))
  | self exceed hit =>
    have booked := (relinked_evictSelf hit).trans (relinked_bookSelf _ slab type exceed)
    exact .page 0 (Upkeep.of_relinked booked slab)
  | any hit => exact .page 0 (Upkeep.of_relinked (relinked_allocByEvictAny hit) slab)

end MdbManager

/-! ### The books -/

namespace MdbManager

theorem areaStat_allocItem {mdb next : MdbManager} {slot : Slot} {slab area : Nat}
    {type : AllocType} {now : UInt32}
    (result : mdb.allocItem slab area now = .ok (next, slot, type)) :
    next.areaStat = mdb.areaStat := by
  cases supplied_allocItem result with
  | page free upkeep => exact upkeep.areaStat
  | pool pool index paged upkeep => exact upkeep.areaStat

theorem bookGone_areaStat {mdb other : MdbManager} {item old : MdbItem}
    (stats : mdb.areaStat = other.areaStat) (area : item.area = old.area)
    (keyLen : item.keyLen = old.keyLen) (dataLen : item.dataLen = old.dataLen)
    (size : slabSize item.itemId = slabSize old.itemId) :
    (mdb.bookGone item).areaStat = (other.bookGone old).areaStat := by
  unfold bookGone modifyAreaStat
  rw [stats, area, keyLen, dataLen, size]

theorem bookStored_areaStat {mdb other : MdbManager} (stats : mdb.areaStat = other.areaStat)
    (item : MdbItem) : (mdb.bookStored item).areaStat = (other.bookStored item).areaStat := by
  unfold bookStored modifyAreaStat
  rw [stats]

end MdbManager

theorem Allocated.books {mdb next bare : MdbManager} {layout : Layout} {slot : Slot}
    {slab area : Nat} {type : AllocType} (stats : next.areaStat = mdb.areaStat)
    (given : Allocated mdb layout next slot slab area type)
    (lost : next.dropEvicted slot type = .ok bare) :
    (¬ layout.Live slot ∧ bare.areaStat = mdb.areaStat) ∨
      (layout.Live slot ∧ bare.areaStat = (mdb.bookGone (mdb.items slot)).areaStat) := by
  unfold MdbManager.dropEvicted at lost
  cases given with
  | fresh relaid took unchained plain absent =>
    rw [if_pos rfl] at lost
    cases lost
    exact Or.inl ⟨absent, stats⟩
  | evicted relaid old evicted =>
    rw [if_neg old] at lost
    have area := MdbItem.area_of_body evicted.body
    have keyLen := MdbItem.keyLen_of_body evicted.body
    have dataLen := congrArg MdbItem.dataLen evicted.body
    have size := congrArg slabSize (MdbItem.itemId_of_body evicted.body)
    refine Or.inr ⟨evicted.before, (Relinked.remove lost).areaStat.trans ?_⟩
    exact MdbManager.bookGone_areaStat stats area keyLen dataLen
      (size.trans (slabSize_clearFlags _))

end Tair.Mdb
