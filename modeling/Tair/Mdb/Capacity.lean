/-
There is always room for one more item. When neither the slab nor the pool has a free slot, every
page of the slab is full, so some area has an item that can be evicted.
-/

import Tair.Mdb.Accounts

namespace Tair.Mdb

open MdbManager Tair.Common Tair.Library

/-! ### The slab for a size -/

theorem MdbConfig.slabSizesFrom_sorted (param : MdbConfig) (count start : Nat) :
    (param.slabSizesFrom count start).Pairwise (· ≤ ·) := by
  induction count generalizing start with
  | zero => exact List.Pairwise.nil
  | succ count ih =>
    unfold slabSizesFrom
    split
    · refine List.pairwise_cons.mpr ⟨fun size among => ?_, ih _⟩
      exact ((param.grow_ge _).trans (le_align _)).trans (of_mem_slabSizesFrom among).1
    · exact List.Pairwise.nil

namespace MdbManager

def Graded (manager : MdbManager) : Prop :=
  ∀ slab other, slab ≤ other → other < manager.slabsCount →
    (manager.slabs slab).slabSize ≤ (manager.slabs other).slabSize

theorem graded_initialized {param : MdbConfig} {start : MdbManager}
    (result : initialized param = .ok start) : start.Graded := by
  have begun := begun_initialized result
  intro slab other before inside
  rw [begun.count] at inside
  obtain ⟨_, isSize⟩ := List.getElem?_eq_some_iff.mp (begun.sizes slab (before.trans_lt inside))
  obtain ⟨_, isOther⟩ := List.getElem?_eq_some_iff.mp (begun.sizes other inside)
  rw [← isSize, ← isOther]
  cases Nat.eq_or_lt_of_le before with
  | inl same =>
    subst same
    exact le_rfl
  | inr later =>
    exact List.pairwise_iff_getElem.mp (param.slabSizesFrom_sorted _ _) slab other _ inside later

theorem getSlabmng_least {mdb : MdbManager} {size large : Nat} (graded : mdb.Graded)
    (inside : large < mdb.slabsCount) (enough : size ≤ (mdb.slabs large).slabSize) :
    ∃ slab, mdb.getSlabmng size = some slab ∧ slab < mdb.slabsCount ∧
      size ≤ (mdb.slabs slab).slabSize ∧
      ∀ other, other < mdb.slabsCount → size ≤ (mdb.slabs other).slabSize →
        (mdb.slabs slab).slabSize ≤ (mdb.slabs other).slabSize := by
  have some : ((List.range mdb.slabsCount).find?
      (fun slab => size ≤ (mdb.slabs slab).slabSize)).isSome = true :=
    List.find?_isSome.mpr ⟨large, List.mem_range.mpr inside, decide_eq_true enough⟩
  obtain ⟨slab, found⟩ := Option.isSome_iff_exists.mp some
  obtain ⟨fits, member, prior⟩ := List.find?_range_eq_some.mp found
  refine ⟨slab, found, List.mem_range.mp member, of_decide_eq_true fits, ?_⟩
  intro other otherInside otherEnough
  refine graded slab other (Nat.le_of_not_lt fun before => ?_) otherInside
  have small := prior other before
  rw [decide_eq_true otherEnough] at small
  cases small

/-! ### The turn of the areas -/

def turnsTo (target index : Nat) : Nat :=
  if index ≤ target then target - index else tairMaxAreaCount - index + target

theorem evictIndexFrom_ends {s : SlabManager} {target times : Nat}
    (inside : target < tairMaxAreaCount) (nonempty : (s.itemList target).itemTail ≠ 0)
    {index : Nat} (within : index < tairMaxAreaCount) (near : turnsTo target index < times) :
    ∃ area, evictIndexFrom s times index = some area := by
  induction times generalizing index with
  | zero => exact absurd near (Nat.not_lt_zero _)
  | succ times ih =>
    unfold evictIndexFrom
    split
    · exact ⟨index, rfl⟩
    next empty =>
      have other : index ≠ target := by
        intro same
        rw [same] at empty
        exact empty nonempty
      refine ih ?_ ?_
      · split_ifs <;> omega
      · unfold turnsTo at near ⊢
        -- behind the last area comes the first one
        split_ifs at near ⊢ <;> omega

end MdbManager

/-! ### A slot is found -/

theorem Allocated.took {mdb next : MdbManager} {layout : Layout} {slot : Slot} {slab area : Nat}
    {type : AllocType} (given : Allocated mdb layout next slot slab area type) :
    ∃ relaid, Took mdb layout next relaid slot slab area := by
  cases given with
  | fresh relaid took _ _ _ => exact ⟨relaid, took⟩
  | evicted relaid _ evicted => exact ⟨relaid, evicted.took⟩

theorem Sound.listed_of_used {mdb : MdbManager} {layout : Layout} {slab page : Nat}
    (sound : Sound mdb layout none none) (owner : layout.owner page = some slab)
    (used : (mdb.pages page).freeNr ≠ (mdb.slabs slab).perSlab) :
    ∃ offset, layout.list ⟨page, offset⟩ ≠ none := by
  by_contra unlisted
  apply used
  rw [sound.freeNrs page slab owner]
  refine (TallyOn.tallyOn_eq_card fun offset inside => ?_).trans (Finset.card_range _)
  have off : layout.list ⟨page, offset⟩ = none :=
    not_not.mp fun listed => unlisted ⟨offset, listed⟩
  exact sound.settled.kept ⟨page, offset⟩ slab owner (Finset.mem_range.mp inside) off (by simp)

namespace Kept

variable {mdb next : MdbManager} {layout : Layout} {slab area : Nat} {now : UInt32}

theorem listed_of_full (kept : Kept mdb layout) (full : 0 < (mdb.slabs slab).fullPagesNo) :
    ∃ slot old, layout.list slot = some (slab, old) ∧ old < tairMaxAreaCount := by
  have sound := kept.intact.1
  have counted : 0 < (mdb.slabs slab).pagesNo .full := full
  obtain ⟨page, owner, kind, -⟩ := sound.exists_listed counted
  have used : (mdb.pages page).freeNr ≠ (mdb.slabs slab).perSlab := by
    have pos := (sound.fits.perSlab slab (sound.settled.owned page slab owner).1).1
    intro all
    rw [homeList_free (all ▸ pos) all] at kind
    cases kind
  obtain ⟨offset, onList⟩ := sound.listed_of_used owner used
  obtain ⟨⟨ofSlab, old⟩, listed⟩ := Option.ne_none_iff_exists'.mp onList
  obtain ⟨ofOwner, -⟩ := sound.settled.listed _ _ _ listed
  obtain ⟨isArea, live⟩ := sound.settled.live _ _ _ listed (by simp)
  have bound := (kept.contained _ live).1
  rw [← isArea] at bound
  have same : slab = ofSlab := Option.some.inj (owner.symm.trans ofOwner)
  rw [same]
  exact ⟨_, old, listed, bound⟩

theorem allocNewItem_ends (kept : Kept mdb layout) (slab area : Nat) :
    ∃ result, mdb.allocNewItem slab area = .ok result := by
  unfold allocNewItem
  dsimp only
  split_ifs with part free
  · exact ⟨_, rfl⟩
  · exact ⟨_, rfl⟩
  · obtain ⟨⟨pool, page⟩, paged⟩ := kept.pool.allocPage_ends
    rw [paged]
    cases page with
    | none => exact ⟨_, rfl⟩
    | some index => exact ⟨_, rfl⟩

theorem allocByEvictAny_ends (kept : Kept mdb layout) (noRoom : mdb.hasRoom slab = false)
    (owned : 1 ≤ (mdb.slabs slab).pagesOwned) (area : Nat) (now : UInt32) :
    ∃ result, mdb.allocByEvictAny slab area now = .ok result := by
  have full : 0 < (mdb.slabs slab).fullPagesNo := by
    have none := of_decide_eq_false noRoom
    unfold SlabManager.pagesOwned at owned
    omega
  obtain ⟨slot, old, listed, inside⟩ := kept.listed_of_full full
  have nonempty : ((mdb.slabs slab).itemList old).itemTail ≠ 0 := by
    intro zero
    refine kept.intact.1.items.threaded.backward.first_ne_none listed ?_
    unfold listTail
    dsimp only
    rw [zero]
    rfl
  obtain ⟨start, isStart⟩ : ∃ start, (if (mdb.slabs slab).evictIndex ≥ tairMaxAreaCount then 0
      else (mdb.slabs slab).evictIndex) = start := ⟨_, rfl⟩
  have within : start < tairMaxAreaCount := by
    rw [← isStart]
    split_ifs
    · decide
    · omega
  have near : turnsTo old start < tairMaxAreaCount + 1 := by
    unfold turnsTo
    split_ifs <;> omega
  obtain ⟨index, found⟩ := evictIndexFrom_ends inside nonempty within near
  unfold allocByEvictAny evictAny
  dsimp only
  rw [isStart, found]
  exact ⟨_, rfl⟩

theorem allocItem_ends (kept : Kept mdb layout) (inside : area < tairMaxAreaCount)
    (owned : 1 ≤ (mdb.slabs slab).pagesOwned) (now : UInt32) :
    ∃ result, mdb.allocItem slab area now = .ok result := by
  obtain ⟨⟨taken, place⟩, fresh⟩ := kept.allocNewItem_ends slab area
  unfold allocItem check
  rw [if_pos inside, fresh]
  dsimp only [bind, Except.bind]
  cases place with
  | some slot =>
    split_ifs
    · cases mdb.evictSelf slab area now with
      | some evicted => exact ⟨_, rfl⟩
      | none => exact ⟨_, rfl⟩
    · exact ⟨_, rfl⟩
  | none =>
    obtain ⟨noRoom, rfl⟩ := allocNewItem_none fresh
    have any := kept.allocByEvictAny_ends noRoom owned area now
    split_ifs
    · cases taken.evictSelf slab area now with
      | some evicted => exact ⟨_, rfl⟩
      | none => exact any
    · dsimp only
      cases taken.evictSelf slab area now with
      | some evicted => exact ⟨_, rfl⟩
      | none => exact any

end Kept

/-! ### Every slab keeps a page -/

structure Stocked (manager : MdbManager) : Prop where
  graded : manager.Graded
  owned : ∀ slab, slab < manager.slabsCount → 1 ≤ (manager.slabs slab).pagesOwned

namespace Stocked

variable {mdb next : MdbManager}

theorem steady (stocked : Stocked mdb) (steady : Steady mdb next) : Stocked next := by
  refine ⟨fun slab other before inside => ?_, fun slab inside => ?_⟩
  · rw [steady.slabsCount] at inside
    rw [steady.slabSize, steady.slabSize]
    exact stocked.graded slab other before inside
  · rw [steady.slabsCount] at inside
    exact steady.owned slab (stocked.owned slab inside)

theorem initialized {param : MdbParam} {start : MdbManager}
    (begun : initialized param = .ok start)
    (given : ∀ slab, slab < start.slabsCount → (start.slabs slab).freePagesNo = 1) :
    Stocked start := by
  refine ⟨MdbManager.graded_initialized begun, fun slab inside => ?_⟩
  obtain ⟨layout, kept⟩ := kept_initialized begun
  have full := kept.intact.1.counts slab .full
  have part := kept.intact.1.counts slab .part
  have free := given slab inside
  unfold SlabManager.pagesNo at full part
  dsimp only at full part
  unfold SlabManager.pagesOwned
  omega

end Stocked

structure Fitting (manager : MdbManager) (key data : DataEntry) (slab : Nat) : Prop where
  inside : slab < manager.slabsCount
  enough : key.data.length + data.data.length + mdbItemSize ≤ (manager.slabs slab).slabSize

namespace Kept

variable {mdb : MdbManager} {layout : Layout} {key data : DataEntry} {expired : Int32}
  {now evictNow : UInt32} {large : Nat} (kept : Kept mdb layout) (stocked : Stocked mdb)
  (inside : keyArea key.data < tairMaxAreaCount) (fits : Fitting mdb key data large)

include kept stocked inside fits

theorem store_ends {version : UInt16} {oldFlag : Nat} :
    ∃ result, mdb.store key data version expired oldFlag now evictNow = .ok result := by
  obtain ⟨slab, found, bound, -⟩ := getSlabmng_least stocked.graded fits.inside fits.enough
  obtain ⟨⟨given, slot, type⟩, alloc⟩ :=
    kept.allocItem_ends inside (stocked.owned slab bound) evictNow
  have lost : ∃ bare, given.dropEvicted slot type = .ok bare := by
    unfold dropEvicted
    split
    · exact ⟨_, rfl⟩
    · obtain ⟨relaid, took⟩ := (kept.intact.1.allocItem kept.intact.2 bound alloc).took
      exact (took.sound.alike (Alike.bookGone given _)).remove_ends slot
  obtain ⟨bare, drop⟩ := lost
  unfold MdbManager.store
  dsimp only
  rw [found]
  dsimp only
  rw [alloc]
  dsimp only [bind, Except.bind]
  rw [drop]
  exact ⟨_, rfl⟩

theorem storeNext_ends {versionCare : Bool} {old : UInt16} {oldFlag : Nat} :
    ∃ result, mdb.storeNext key data versionCare old expired oldFlag now evictNow =
      .ok result := by
  obtain ⟨stored, result⟩ := @store_ends mdb layout key data expired now evictNow large kept stocked
    inside fits (if versionCare then old + 1 else key.dataMeta.version) oldFlag
  unfold storeNext
  rw [result]
  exact ⟨_, rfl⟩

theorem doPut_ends (versionCare : Bool) :
    ∃ result, mdb.doPut key data versionCare expired now evictNow = .ok result := by
  obtain ⟨found, search⟩ := kept.intact.1.find_ends key.data
  unfold MdbManager.doPut
  rw [search]
  dsimp only [bind, Except.bind]
  cases found with
  | none => exact kept.storeNext_ends stocked inside fits
  | some slot =>
    cases kept.intact.1.find search with
    | present _ here _ =>
      obtain ⟨gone, removal⟩ := kept.intact.1.removeItem_ends slot
      obtain ⟨relaid, after, -⟩ := kept.removeItem here removal
      have steady := Steady.removeItem removal
      have room : Fitting gone key data large := by
        refine ⟨?_, ?_⟩
        · rw [steady.slabsCount]
          exact fits.inside
        · rw [steady.slabSize]
          exact fits.enough
      dsimp only
      rw [removal]
      dsimp only
      -- an item that has expired goes like one that is replaced
      split
      · exact after.storeNext_ends (stocked.steady steady) inside room
      · split
        · exact ⟨_, rfl⟩
        · exact after.storeNext_ends (stocked.steady steady) inside room

end Kept

/-- A slot is found for every area and every size that some slab has, in the slab with the least
size that is enough; no put of an item that fits comes to an assertion. -/
theorem allocation_never_fails {param : MdbParam} {start state : MdbManager}
    (begun : initialized param = .ok start)
    (given : ∀ slab, slab < start.slabsCount → (start.slabs slab).freePagesNo = 1)
    (reached : start.Serves state) :
    (∀ slab, slab < state.slabsCount → 1 ≤ (state.slabs slab).pagesOwned) ∧
    (∀ area size now, area < tairMaxAreaCount →
      (∃ large, large < state.slabsCount ∧ size ≤ (state.slabs large).slabSize) →
      ∃ slab next slot type, state.getSlabmng size = some slab ∧
        state.allocItem slab area now = .ok (next, slot, type) ∧
        slabId (next.items slot).itemId = slab ∧ slot.offset < (next.slabs slab).perSlab ∧
        size ≤ (state.slabs slab).slabSize ∧
        ∀ other, other < state.slabsCount → size ≤ (state.slabs other).slabSize →
          (state.slabs slab).slabSize ≤ (state.slabs other).slabSize) ∧
    ∀ key data large versionCare expired now evictNow, keyArea key.data < tairMaxAreaCount →
      Fitting state key data large →
      ∃ result, state.doPut key data versionCare expired now evictNow = .ok result := by
  obtain ⟨layout, kept⟩ := kept_of_reached begun reached
  have stocked := (Stocked.initialized begun given).steady (steady_of_reached begun reached)
  refine ⟨stocked.owned, ?_, ?_⟩
  · intro area size now inside some
    obtain ⟨large, bound, enough⟩ := some
    obtain ⟨slab, found, slabBound, fits, least⟩ :=
      MdbManager.getSlabmng_least stocked.graded bound enough
    obtain ⟨⟨next, slot, type⟩, alloc⟩ :=
      kept.allocItem_ends inside (stocked.owned slab slabBound) now
    obtain ⟨relaid, took⟩ := (kept.intact.1.allocItem kept.intact.2 slabBound alloc).took
    obtain ⟨owner, within⟩ := took.sound.settled.listed slot slab area took.onList
    have own := took.sound.settled.ids slot slab owner within
    exact ⟨slab, next, slot, type, found, alloc, own.slab, within, fits, least⟩
  · intro key data large versionCare expired now evictNow inside fits
    exact kept.doPut_ends stocked inside fits versionCare

/-- Every slab of the small engine gets its page, and two areas are served. -/
theorem allocation_never_fails_run : ∃ start state,
    initialized smallParam = .ok start ∧ start.Serves state ∧
    ∃ slab next slot type, state.getSlabmng 1000 = some slab ∧
      state.allocItem slab 3 1000 = .ok (next, slot, type) ∧
      slabId (next.items slot).itemId = slab := by
  have given : (initialized smallParam).toOption.all (fun start =>
      decide (∀ slab, slab < start.slabsCount → (start.slabs slab).freePagesNo = 1)) = true := by
    decide +kernel
  obtain ⟨start, state, begun, reached, large⟩ := exists_served smallParam
    [putOf [1, 0, 65] [7], putOf [2, 0, 65] [9]]
    (fun state => ∃ large, large < state.slabsCount ∧ 1000 ≤ (state.slabs large).slabSize)
    (by decide +kernel)
  rw [begun] at given
  obtain ⟨slab, next, slot, type, found, alloc, isSlab, -⟩ := (allocation_never_fails begun
    (of_decide_eq_true given) reached).2.1 3 1000 1000 (by decide) large
  exact ⟨start, state, begun, reached, slab, next, slot, type, found, alloc, isSlab⟩

end Tair.Mdb
