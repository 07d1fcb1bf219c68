/-
What stays the same from one state of the engine to the next: the slabs and their sizes, and that
a slab which has a page keeps one.
-/

import Tair.Mdb.Pool

namespace Tair.Mdb

open MdbManager Tair.Common Tair.Library

structure Steady (manager next : MdbManager) : Prop where
  slabsCount : next.slabsCount = manager.slabsCount
  bucketSize : next.bucketSize = manager.bucketSize
  slabSize : ∀ slab, (next.slabs slab).slabSize = (manager.slabs slab).slabSize
  perSlab : ∀ slab, (next.slabs slab).perSlab = (manager.slabs slab).perSlab
  owned : ∀ slab, 1 ≤ (manager.slabs slab).pagesOwned → 1 ≤ (next.slabs slab).pagesOwned

namespace Steady

variable {mdb middle next : MdbManager} {slab : Nat} {slot : Slot}

theorem refl (mdb : MdbManager) : Steady mdb mdb :=
  ⟨rfl, rfl, fun _ => rfl, fun _ => rfl, fun _ some => some⟩

theorem trans (first : Steady mdb middle) (second : Steady middle next) :
    Steady mdb next where
  slabsCount := second.slabsCount.trans first.slabsCount
  bucketSize := second.bucketSize.trans first.bucketSize
  slabSize slab := (second.slabSize slab).trans (first.slabSize slab)
  perSlab slab := (second.perSlab slab).trans (first.perSlab slab)
  owned slab some := second.owned slab (first.owned slab some)

theorem of_upkeep {owned free : Int} {pool : MemPool}
    (upkeep : Upkeep mdb next slab owned free pool)
    (enough : 0 ≤ owned ∨ 1 ≤ (mdb.slabs slab).pagesOwned + owned) : Steady mdb next := by
  refine ⟨upkeep.slabsCount, upkeep.bucketSize, upkeep.slabSize, upkeep.perSlab, fun other some => ?_⟩
  rw [upkeep.owned]
  split_ifs with same
  · subst same
    omega
  · omega

theorem of_relinked (relinked : Relinked mdb next) : Steady mdb next :=
  of_upkeep (Upkeep.of_relinked relinked 0) (Or.inl le_rfl)

theorem bookGone (mdb : MdbManager) (item : MdbItem) : Steady mdb (mdb.bookGone item) :=
  { refl mdb with }

theorem of_freed {page : Nat} (freed : Freed mdb next slab page) : Steady mdb next := by
  cases freed with
  | partly _ upkeep => exact of_upkeep upkeep (Or.inl le_rfl)
  | kept _ _ upkeep => exact of_upkeep upkeep (Or.inl le_rfl)
  | returned _ many upkeep => exact of_upkeep upkeep (Or.inr (by omega))

theorem of_supplied (supplied : Supplied mdb next slab) : Steady mdb next := by
  cases supplied with
  | page free upkeep => exact of_upkeep upkeep (Or.inl le_rfl)
  | pool pool index paged upkeep => exact of_upkeep upkeep (Or.inl (by decide))

theorem removeItem (gone : mdb.removeItem slot = .ok next) : Steady mdb next := by
  obtain ⟨unhashed, -, freed⟩ := freed_removeItem gone
  exact (bookGone mdb _).trans (of_freed freed)

theorem of_shed (shed : Shed mdb next) : Steady mdb next := by
  cases shed with
  | remove slot stored gone => exact removeItem gone
  | release slab empty more =>
    exact of_upkeep (upkeep_releasePage mdb slab _) (Or.inr (by omega))
  | reset => exact ⟨rfl, rfl, fun _ => rfl, fun _ => rfl, fun _ some => some⟩

theorem of_sheds (sheds : Sheds mdb next) : Steady mdb next := by
  induction sheds with
  | refl => exact refl mdb
  | tail _ last ih => exact ih.trans (of_shed last)

theorem dropEvicted {type : AllocType} (lost : mdb.dropEvicted slot type = .ok next) :
    Steady mdb next := by
  unfold MdbManager.dropEvicted at lost
  split at lost
  · cases lost
    exact refl mdb
  · exact (bookGone mdb _).trans (of_relinked (Relinked.remove lost))

variable {key data entry : DataEntry} {versionCare : Bool} {expired : Int32}
  {now evictNow : UInt32} {code : ReturnCode}

theorem store {version : UInt16} {oldFlag : Nat}
    (stored : mdb.store key data version expired oldFlag now evictNow = .ok (next, entry)) :
    Steady mdb next := by
  obtain ⟨slab, given, slot, type, bare, -, -, alloc, lost, rfl⟩ := store_parts stored
  have taken := (of_supplied (supplied_allocItem alloc)).trans (dropEvicted lost)
  have wrote : Relinked bare
      ((bare.writeItem slot key data version expired oldFlag now).insert slot) :=
    (Relinked.modifyItem bare slot _).trans (Relinked.insert _ slot)
  refine (taken.trans (of_relinked wrote)).trans ?_
  exact ⟨rfl, rfl, fun _ => rfl, fun _ => rfl, fun _ some => some⟩

theorem doPut {layout : Layout} (intact : Intact mdb layout)
    (put : mdb.doPut key data versionCare expired now evictNow = .ok (next, code, entry)) :
    Steady mdb next := by
  obtain ⟨found, -, turned | stored⟩ := doPut_cases put
  · rw [turned.2.1]
    exact refl mdb
  · obtain ⟨-, -, clean, removal, removed, stored⟩ := stored
    exact (of_sheds (Sweeps.doRemove removed layout intact)).trans (store stored)

theorem step {layout : Layout} {op : Operation} (intact : Intact mdb layout)
    (ran : mdb.step op = .ok next) : Steady mdb next := by
  cases ran_of_step ran with
  | put put => exact doPut intact put
  | sweeps sweeps => exact of_sheds (sweeps layout intact)
  | touch _ => exact of_relinked (Relinked.updateItem mdb _ _ _)
  | quota area quota => exact ⟨rfl, rfl, fun _ => rfl, fun _ => rfl, fun _ some => some⟩

end Steady

theorem steady_of_reached {param : MdbParam} {start state : MdbManager}
    (begun : initialized param = .ok start)
    (reached : start.Serves state) : Steady start state := by
  induction reached with
  | start => exact Steady.refl start
  | step prior event allowed ran ih =>
    obtain ⟨layout, intact⟩ := intact_of_reached begun prior
    exact ih.trans (Steady.step intact ran)

end Tair.Mdb
