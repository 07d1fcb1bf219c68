/-
The books of the areas. Three counters of an area are kept item by item: the bytes of keys and
values, the sizes of the slots, and the number of items. Each is the sum over the items of the
area.
-/

import Tair.Mdb.Steady

namespace Tair.Mdb

open MdbManager Tair.Common Tair.Library

/-! ### Counters -/

structure Counter where
  read : AreaStat → UInt64
  weigh : MdbItem → Nat
  body : ∀ item, weigh item.body = weigh item
  zero : read ⟨0, 0, 0, 0⟩ = 0
  quota : ∀ stat quota, read { stat with quota } = read stat
  gone : ∀ (manager : MdbManager) (item : MdbItem) (area : Nat),
    read ((manager.bookGone item).areaStat area) =
      read (manager.areaStat area) - UInt64.ofNat (if item.area = area then weigh item else 0)
  stored : ∀ (manager : MdbManager) (item : MdbItem) (area : Nat),
    read ((manager.bookStored item).areaStat area) =
      read (manager.areaStat area) + UInt64.ofNat (if item.area = area then weigh item else 0)

namespace MdbManager

theorem areaStat_modifyAreaStat (mdb : MdbManager) (area other : Nat)
    (change : AreaStat → AreaStat) :
    (mdb.modifyAreaStat area change).areaStat other =
      if area = other then change (mdb.areaStat other) else mdb.areaStat other := by
  unfold modifyAreaStat
  dsimp only
  by_cases same : other = area
  · rw [same, Function.update_self, if_pos rfl]
  · rw [Function.update_of_ne same, if_neg (Ne.symm same)]

end MdbManager

namespace Counter

def dataSize : Counter where
  read := AreaStat.dataSize
  weigh item := item.keyLen + item.dataLen
  body _ := rfl
  zero := rfl
  quota _ _ := rfl
  gone manager item area := by
    rw [bookGone, areaStat_modifyAreaStat]
    split_ifs
    · rfl
    · exact (sub_zero _).symm
  stored manager item area := by
    rw [bookStored, areaStat_modifyAreaStat]
    split_ifs
    · rw [Nat.add_comm]
    · exact (add_zero _).symm

def spaceUsage : Counter where
  read := AreaStat.spaceUsage
  weigh item := slabSize item.itemId
  body _ := rfl
  zero := rfl
  quota _ _ := rfl
  gone manager item area := by
    rw [bookGone, areaStat_modifyAreaStat]
    split_ifs
    · rfl
    · exact (sub_zero _).symm
  stored manager item area := by
    rw [bookStored, areaStat_modifyAreaStat]
    split_ifs
    · rfl
    · exact (add_zero _).symm

def itemCount : Counter where
  read := AreaStat.itemCount
  weigh _ := 1
  body _ := rfl
  zero := rfl
  quota _ _ := rfl
  gone manager item area := by
    rw [bookGone, areaStat_modifyAreaStat]
    split_ifs
    · rfl
    · exact (sub_zero _).symm
  stored manager item area := by
    rw [bookStored, areaStat_modifyAreaStat]
    split_ifs
    · rfl
    · exact (add_zero _).symm

def share (counter : Counter) (area : Nat) (item : MdbItem) : Nat :=
  if item.area = area then counter.weigh item else 0

theorem share_of_body (counter : Counter) (area : Nat) {item other : MdbItem}
    (same : item.body = other.body) : counter.share area item = counter.share area other := by
  unfold share
  rw [← counter.body item, ← counter.body other, same, MdbItem.area_of_body same]

end Counter

def Tallied (counter : Counter) (manager : MdbManager) (live : Finset Slot) : Prop :=
  ∀ area, counter.read (manager.areaStat area) =
    UInt64.ofNat (∑ slot ∈ live, counter.share area (manager.items slot))

namespace Tallied

variable {counter : Counter} {mdb next : MdbManager} {live : Finset Slot} {slot : Slot}

theorem sum_congr (bodies : ∀ other ∈ live, (next.items other).body = (mdb.items other).body)
    (area : Nat) : ∑ other ∈ live, counter.share area (next.items other) =
      ∑ other ∈ live, counter.share area (mdb.items other) :=
  Finset.sum_congr rfl fun other member => counter.share_of_body area (bodies other member)

theorem removed (tallied : Tallied counter mdb live) (member : slot ∈ live)
    (stats : next.areaStat = (mdb.bookGone (mdb.items slot)).areaStat)
    (bodies : ∀ other ∈ live.erase slot, (next.items other).body = (mdb.items other).body) :
    Tallied counter next (live.erase slot) := by
  intro area
  rw [stats, counter.gone, tallied area, sum_congr bodies, ← Finset.add_sum_erase _ _ member,
    UInt64.ofNat_add, Counter.share]
  exact add_sub_cancel_left _ _

theorem stored {item : MdbItem} (tallied : Tallied counter mdb live) (absent : slot ∉ live)
    (stats : next.areaStat = (mdb.bookStored item).areaStat)
    (own : (next.items slot).body = item.body)
    (bodies : ∀ other ∈ live, (next.items other).body = (mdb.items other).body) :
    Tallied counter next (insert slot live) := by
  intro area
  rw [stats, counter.stored, tallied area, Finset.sum_insert absent, sum_congr bodies,
    counter.share_of_body area own, UInt64.ofNat_add, Counter.share]
  exact add_comm _ _

end Tallied

/-! ### What every operation keeps -/

def MdbItem.Contained (item : MdbItem) : Prop :=
  item.area < tairMaxAreaCount ∧ item.keyLen < 2 ^ 12 ∧ item.dataLen < 2 ^ 20

theorem MdbItem.contained_of_body {item other : MdbItem} (same : item.body = other.body) :
    item.Contained ↔ other.Contained := by
  have read := congrArg MdbItem.Contained same
  exact iff_of_eq read

structure Kept (manager : MdbManager) (layout : Layout) : Prop where
  intact : Intact manager layout
  pool : manager.pool.Counted
  contained : ∀ slot, layout.Live slot → (manager.items slot).Contained
  booked : ∀ (counter : Counter) (live : Finset Slot), (∀ slot, slot ∈ live ↔ layout.Live slot) →
    Tallied counter manager live

namespace Kept

variable {mdb next : MdbManager} {layout : Layout} {slot : Slot}

theorem live (kept : Kept mdb layout) :
    ∃ live : Finset Slot, ∀ slot, slot ∈ live ↔ layout.Live slot := by
  obtain ⟨live, members, -⟩ := kept.intact.1.counted
  exact ⟨live, members⟩

theorem pageId (kept : Kept mdb layout) {page slab : Nat} (owner : layout.owner page = some slab) :
    (mdb.pages page).id = page ∧ 0 < page ∧ page < mdb.pool.totalPages := by
  obtain ⟨-, pos, below, -, id⟩ := kept.intact.1.settled.owned page slab owner
  exact ⟨id, pos, below⟩

theorem areaStat_removeItem (kept : Kept mdb layout) (found : layout.Live slot)
    (removal : mdb.removeItem slot = .ok next) :
    next.areaStat = (mdb.bookGone (mdb.items slot)).areaStat := by
  cases kept.intact.freed found removal with
  | partly _ upkeep => exact upkeep.areaStat
  | kept _ _ upkeep => exact upkeep.areaStat
  | returned _ _ upkeep => exact upkeep.areaStat

theorem live_erase {relaid : Layout} {live left : Finset Slot}
    (removes : Removes mdb layout next relaid slot)
    (isLive : ∀ slot, slot ∈ live ↔ layout.Live slot)
    (members : ∀ slot, slot ∈ left ↔ relaid.Live slot) : left = live.erase slot := by
  ext other
  rw [members, Finset.mem_erase, isLive]
  constructor
  · intro otherFound
    refine ⟨?_, (removes.shrinks other otherFound).1⟩
    intro same
    rw [same] at otherFound
    exact removes.gone otherFound
  · intro both
    exact removes.kept other both.2 both.1

section

variable (kept : Kept mdb layout)

include kept

theorem removeItem (found : layout.Live slot) (removal : mdb.removeItem slot = .ok next) :
    ∃ relaid, Kept next relaid ∧ Removes mdb layout next relaid slot := by
  obtain ⟨relaid, intact, removes⟩ := kept.intact.removeItem found removal
  have freed := kept.intact.freed found removal
  obtain ⟨slab, -, owner, -, -⟩ := kept.intact.1.onList found
  refine ⟨relaid, ⟨intact, ?_, ?_, ?_⟩, removes⟩
  · obtain ⟨id, pos, below⟩ := kept.pageId owner
    cases freed with
    | partly _ upkeep =>
      rw [upkeep.pool]
      exact kept.pool
    | kept _ _ upkeep =>
      rw [upkeep.pool]
      exact kept.pool
    | returned _ _ upkeep =>
      rw [upkeep.pool]
      change (mdb.pool.freePage (mdb.pages slot.page).id).Counted
      rw [id]
      exact kept.pool.freePage pos below
  · intro other otherFound
    obtain ⟨prior, body⟩ := removes.shrinks other otherFound
    rw [MdbItem.contained_of_body body]
    exact kept.contained other prior
  · intro counter left members
    obtain ⟨live, isLive⟩ := kept.live
    have erased := live_erase removes isLive members
    rw [erased]
    refine (kept.booked counter live isLive).removed ((isLive slot).mpr found)
      (kept.areaStat_removeItem found removal) ?_
    intro other member
    rw [← erased] at member
    exact (removes.shrinks other ((members other).mp member)).2

theorem unbooked {relaid : Layout} (intact : Intact next relaid) (pool : next.pool.Counted)
    (stats : ∀ (counter : Counter) (area : Nat),
      counter.read (next.areaStat area) = counter.read (mdb.areaStat area))
    (live : ∀ slot, relaid.Live slot ↔ layout.Live slot)
    (bodies : ∀ slot, (next.items slot).body = (mdb.items slot).body) : Kept next relaid := by
  refine ⟨intact, pool, ?_, ?_⟩
  · intro slot found
    rw [MdbItem.contained_of_body (bodies slot)]
    exact kept.contained slot ((live slot).mp found)
  · intro counter found members area
    rw [stats, Tallied.sum_congr fun other _ => bodies other]
    refine kept.booked counter found ?_ area
    intro slot
    rw [members, live]

theorem releasePage {slab : Nat} (empty : 0 < (mdb.slabs slab).freePagesNo) :
    ∃ relaid, Kept (mdb.releasePage slab (mdb.slabs slab).freePages) relaid := by
  obtain ⟨intact, items⟩ := Shed.intact_releasePage kept.intact empty rfl
  have upkeep := upkeep_releasePage mdb slab (mdb.slabs slab).freePages
  refine ⟨_, kept.unbooked intact ?_ ?_ (fun _ => Iff.rfl) ?_⟩
  · obtain ⟨owner, -⟩ := kept.intact.1.freePage empty rfl
    obtain ⟨id, pos, below⟩ := kept.pageId owner
    rw [upkeep.pool, id]
    exact kept.pool.freePage pos below
  · intro counter area
    rw [upkeep.areaStat]
  · intro slot
    rw [items]

theorem alike (books : Alike mdb next) (stats : ∀ (counter : Counter) (area : Nat),
      counter.read (next.areaStat area) = counter.read (mdb.areaStat area)) : Kept next layout := by
  refine kept.unbooked ⟨kept.intact.1.alike books, Sound.unset_framed books.framed kept.intact.2⟩
    ?_ stats (fun _ => Iff.rfl) books.framed.body
  rw [books.moves.pool]
  exact kept.pool

theorem shed (shed : Shed mdb next) : ∃ relaid, Kept next relaid := by
  cases shed with
  | remove slot stored gone =>
    obtain ⟨relaid, after, -⟩ :=
      kept.removeItem (kept.intact.1.stored_iff.mp stored) gone
    exact ⟨relaid, after⟩
  | release slab empty more => exact kept.releasePage empty
  | reset =>
    refine ⟨layout, kept.alike (Alike.balanceSlabDone mdb) ?_⟩
    intro counter area
    rfl

theorem sheds (sheds : Sheds mdb next) : ∃ relaid, Kept next relaid := by
  induction sheds with
  | refl => exact ⟨layout, kept⟩
  | tail _ last ih =>
    obtain ⟨between, keptBetween⟩ := ih
    exact keptBetween.shed last

theorem touch (found : layout.Live slot) :
    Kept (mdb.updateItem (slabId (mdb.items slot).itemId) slot
      (mdb.items slot).area) layout := by
  have relinked := Relinked.updateItem mdb (slabId (mdb.items slot).itemId) slot
    (mdb.items slot).area
  obtain ⟨sound, unset, framed⟩ := kept.intact.1.touch kept.intact.2 found
  refine kept.unbooked ⟨sound, unset⟩ ?_ ?_ (fun _ => Iff.rfl) framed.body
  · rw [relinked.pool]
    exact kept.pool
  · intro counter area
    rw [relinked.areaStat]

theorem setAreaQuota (area : Nat) (quota : UInt64) : Kept (mdb.setAreaQuota area quota) layout := by
  refine kept.alike (Alike.areaStat _ _) ?_
  intro counter other
  unfold MdbManager.setAreaQuota
  dsimp only
  by_cases same : other = area
  · rw [same, Function.update_self, counter.quota]
  · rw [Function.update_of_ne same]

end

/-! ### Puts -/

variable {key data entry : DataEntry} {version : UInt16} {expired : Int32} {oldFlag : Nat}
  {now evictNow : UInt32}

section

variable (kept : Kept mdb layout)

include kept

theorem pool_dropEvicted {slab area : Nat} {type : AllocType} {given bare : MdbManager}
    (alloc : mdb.allocItem slab area evictNow = .ok (given, slot, type))
    (lost : given.dropEvicted slot type = .ok bare) : bare.pool.Counted := by
  have same : bare.pool = given.pool := by
    unfold dropEvicted at lost
    split at lost
    · cases lost
      rfl
    · exact (Relinked.remove lost).pool
  rw [same]
  cases supplied_allocItem alloc with
  | page free upkeep =>
    rw [upkeep.pool]
    exact kept.pool
  | pool pool index paged upkeep =>
    rw [upkeep.pool]
    exact kept.pool.allocPage paged

theorem store (merged : MergedKey key.data)
    (absent : ∀ slot, layout.Live slot → (mdb.items slot).key ≠ key.data)
    (stored : mdb.store key data version expired oldFlag now evictNow = .ok (next, entry)) :
    ∃ relaid, Kept next relaid := by
  obtain ⟨relaid, slot, old, -, stores, entered⟩ :=
    kept.intact.1.store kept.intact.2 merged absent stored
  obtain ⟨slab, given, place, type, bare, -, -, alloc, lost, isNext⟩ := store_parts stored
  have inside : keyArea key.data < tairMaxAreaCount := (ok_of_check alloc).1
  refine ⟨relaid, ⟨stores.sound, stores.unset⟩, ?_, ?_, ?_⟩
  · have same : next.pool = bare.pool := by
      rw [isNext]
      exact (Relinked.insert _ place).pool
    rw [same]
    exact kept.pool_dropEvicted alloc lost
  · intro other found
    by_cases same : other = slot
    · rw [same, MdbItem.contained_of_body stores.body]
      refine ⟨?_, Nat.mod_lt _ (by decide), Nat.mod_lt _ (by decide)⟩
      rw [(fillItem_keyed merged).area_eq, fillItem_key merged]
      exact inside
    · obtain ⟨prior, body⟩ := stores.shrinks other same found
      rw [MdbItem.contained_of_body body]
      exact kept.contained other prior
  · intro counter found members
    obtain ⟨live, isLive⟩ := kept.live
    have others : ∀ other, other ≠ slot → (other ∈ found ↔ other ∈ live) := by
      intro other ne
      rw [members, isLive]
      exact ⟨fun now => (stores.shrinks other ne now).1, entered.kept other ne⟩
    have bodies : ∀ other ∈ live.erase slot,
        (next.items other).body = (mdb.items other).body := by
      intro other member
      obtain ⟨ne, member⟩ := Finset.mem_erase.mp member
      exact (stores.shrinks other ne ((members other).mp ((others other ne).mpr member))).2
    have isFound : found = insert slot (live.erase slot) := by
      ext other
      rw [Finset.mem_insert, Finset.mem_erase]
      by_cases same : other = slot
      · subst same
        exact iff_of_true ((members other).mpr stores.live) (Or.inl rfl)
      · rw [others other same]
        tauto
    have tallied := kept.booked counter live isLive
    rw [isFound]
    cases entered.books with
    | inl fresh =>
      obtain ⟨free, stats⟩ := fresh
      have notIn : slot ∉ live := fun member => free ((isLive slot).mp member)
      rw [Finset.erase_eq_of_notMem notIn] at bodies ⊢
      exact tallied.stored notIn stats stores.body bodies
    | inr evicted =>
      obtain ⟨before, stats⟩ := evicted
      have without : Tallied counter (mdb.bookGone (mdb.items slot)) (live.erase slot) :=
        tallied.removed ((isLive slot).mpr before) rfl fun _ _ => rfl
      exact without.stored (Finset.notMem_erase slot live) stats stores.body bodies

theorem swept (sweeps : Sweeps mdb next) : ∃ relaid, Kept next relaid :=
  kept.sheds (sweeps layout kept.intact)

theorem doPut {versionCare : Bool} {code : ReturnCode} (merged : MergedKey key.data)
    (put : mdb.doPut key data versionCare expired now evictNow = .ok (next, code, entry)) :
    ∃ relaid, Kept next relaid := by
  obtain ⟨found, -, turned | stored⟩ := doPut_cases put
  · rw [turned.2.1]
    exact ⟨layout, kept⟩
  · obtain ⟨-, -, clean, removal, removed, stored⟩ := stored
    obtain ⟨relaid, sound, -, -, absent⟩ := kept.intact.1.doRemove kept.intact.2 removed
    obtain ⟨between, after⟩ := kept.swept (Sweeps.doRemove removed)
    refine after.store merged (fun slot found => absent slot ?_) stored
    exact sound.stored_iff.mp (after.intact.1.stored_iff.mpr found)

theorem step {op : Operation} (served : op.Served mdb)
    (ran : mdb.step op = .ok next) : ∃ relaid, Kept next relaid := by
  cases ran_of_step ran with
  | put put => exact kept.doPut served put
  | sweeps sweeps => exact kept.swept sweeps
  | touch found => exact ⟨layout, kept.touch (found layout kept.intact)⟩
  | quota area quota => exact ⟨layout, kept.setAreaQuota area quota⟩

end

end Kept

theorem kept_initialized {param : MdbParam} {start : MdbManager}
    (result : initialized param = .ok start) : ∃ layout, Kept start layout := by
  obtain ⟨layout, intact, none⟩ := intact_initialized result
  have begun := begun_initialized result
  refine ⟨layout, intact, begun.pool, fun slot found => absurd found (none slot), ?_⟩
  intro counter live members area
  have empty : live = ∅ :=
    Finset.eq_empty_of_forall_notMem fun slot member => none slot ((members slot).mp member)
  rw [empty, Finset.sum_empty, begun.areaStat]
  exact counter.zero

theorem kept_of_reached {param : MdbParam} {start state : MdbManager}
    (begun : initialized param = .ok start)
    (reached : start.Serves state) : ∃ layout, Kept state layout := by
  apply reached.invariant (fun state => ∃ layout, Kept state layout) (kept_initialized begun)
  intro state next op kept served ran
  obtain ⟨layout, kept⟩ := kept
  exact kept.step served ran

/-! ### The counters are exact -/

namespace Kept

variable {mdb : MdbManager} {layout : Layout} {live : Finset Slot} {slot : Slot}

theorem placed (kept : Kept mdb layout) (found : layout.Live slot) : slot.Placed := by
  obtain ⟨slab, -, owner, inside, -⟩ := kept.intact.1.onList found
  obtain ⟨slabBound, -, below, -, -⟩ := kept.intact.1.settled.owned slot.page slab owner
  have fits := kept.intact.1.fits
  exact ⟨below.trans_le fits.totalPages, inside.trans_le (fits.perSlab slab slabBound).2⟩

theorem card_le (kept : Kept mdb layout) (members : ∀ slot, slot ∈ live ↔ layout.Live slot) :
    live.card ≤ 2 ^ 32 := by
  rw [← Finset.length_toList]
  refine length_le_of_placed (Finset.nodup_toList live) fun slot member => ?_
  exact kept.placed ((members slot).mp (Finset.mem_toList.mp member))

theorem exact_of_small {counter : Counter} (kept : Kept mdb layout)
    (members : ∀ slot, slot ∈ live ↔ layout.Live slot)
    (small : ∀ slot ∈ live, counter.weigh (mdb.items slot) ≤ 2 ^ 21) (area : Nat) :
    (counter.read (mdb.areaStat area)).toNat =
      ∑ slot ∈ live with (mdb.items slot).area = area, counter.weigh (mdb.items slot) := by
  have shares : ∑ slot ∈ live, counter.share area (mdb.items slot) =
      ∑ slot ∈ live with (mdb.items slot).area = area, counter.weigh (mdb.items slot) :=
    (Finset.sum_filter _ _).symm
  have bound : ∑ slot ∈ live, counter.share area (mdb.items slot) ≤ live.card * 2 ^ 21 := by
    refine Finset.sum_le_card_nsmul live _ _ fun slot member => ?_
    unfold Counter.share
    split_ifs
    · exact small slot member
    · exact Nat.zero_le _
  have range : ∑ slot ∈ live, counter.share area (mdb.items slot) < 2 ^ 64 := by
    have count := kept.card_le members
    omega
  rw [kept.booked counter live members area, ← shares]
  exact UInt64.toNat_ofNat_of_lt range

end Kept

/-- In every state that operations lead to, the counters of an area are the sums over the items that
are stored for it, if slab sizes keep their bits in an id. -/
theorem accounts_exact {param : MdbParam} {start state : MdbManager}
    (small : ∀ size ∈ param.slabSizes, size < 2 ^ 20) (begun : initialized param = .ok start)
    (reached : start.Serves state) :
    ∃ live : Finset Slot, (∀ slot, slot ∈ live ↔ state.Stored slot) ∧ ∀ area,
      (state.areaStat area).dataSize.toNat =
          ∑ slot ∈ live with (state.items slot).area = area,
            ((state.items slot).keyLen + (state.items slot).dataLen) ∧
        (state.areaStat area).spaceUsage.toNat =
          ∑ slot ∈ live with (state.items slot).area = area,
            (state.slabs (slabId (state.items slot).itemId)).slabSize ∧
        (state.areaStat area).itemCount.toNat =
          (live.filter fun slot => (state.items slot).area = area).card := by
  obtain ⟨layout, kept⟩ := kept_of_reached begun reached
  obtain ⟨live, members⟩ := kept.live
  have steady := steady_of_reached begun reached
  have sizes := begun_initialized begun
  have sizeOf : ∀ slot ∈ live, slabSize (state.items slot).itemId =
      (state.slabs (slabId (state.items slot).itemId)).slabSize := by
    intro slot member
    obtain ⟨slab, -, owner, inside, isSlab⟩ := kept.intact.1.onList ((members slot).mp member)
    have slabBound := (kept.intact.1.settled.owned slot.page slab owner).1
    rw [steady.slabsCount, sizes.count] at slabBound
    have configured := List.mem_of_getElem? (sizes.sizes slab slabBound)
    rw [isSlab, (kept.intact.1.settled.ids slot slab owner inside).size, steady.slabSize]
    exact Nat.mod_eq_of_lt (small _ configured)
  refine ⟨live, fun slot => (members slot).trans kept.intact.1.stored_iff.symm, fun area => ?_⟩
  refine ⟨?_, ?_, ?_⟩
  · refine @Kept.exact_of_small state layout live .dataSize kept members ?_ area
    intro slot member
    obtain ⟨-, keyLen, dataLen⟩ := kept.contained slot ((members slot).mp member)
    change (state.items slot).keyLen + (state.items slot).dataLen ≤ 2 ^ 21
    omega
  · refine (@Kept.exact_of_small state layout live .spaceUsage kept members ?_ area).trans ?_
    · intro slot member
      change (state.items slot).itemId % 2 ^ 20 ≤ 2 ^ 21
      omega
    · exact Finset.sum_congr rfl fun slot member => sizeOf slot (Finset.mem_filter.mp member).1
  · refine (@Kept.exact_of_small state layout live .itemCount kept members ?_ area).trans ?_
    · intro slot member
      change 1 ≤ 2 ^ 21
      decide
    · exact (Finset.card_eq_sum_ones _).symm

/-- Two areas with items; one is overwritten and one removed. -/
theorem accounts_exact_run : ∃ start state, initialized wideParam = .ok start ∧
    start.Serves state ∧
    (state.areaStat 1).dataSize = 5 ∧ ∃ live : Finset Slot,
      (∀ slot, slot ∈ live ↔ state.Stored slot) ∧ (state.areaStat 1).dataSize.toNat =
        ∑ slot ∈ live with (state.items slot).area = 1,
          ((state.items slot).keyLen + (state.items slot).dataLen) := by
  obtain ⟨start, state, begun, reached, booked⟩ := exists_served wideParam
    [.setAreaQuota 1 100, putOf [1, 0, 65] [7], putOf [1, 0, 65] [7, 8], putOf [2, 0, 65] [9],
      .remove (entryOf [2, 0, 65])]
    (fun state => (state.areaStat 1).dataSize = 5) (by decide +kernel)
  obtain ⟨live, members, exact⟩ := accounts_exact (by decide) begun reached
  exact ⟨start, state, begun, reached, booked, live, members, (exact 1).1⟩

/-- The only item lies in the only slab, and is booked with the size that its id has. -/
theorem space_booked_short : ∃ start state, initialized doubleParam = .ok start ∧
    start.Serves state ∧
    (state.areaStat 1).itemCount = 1 ∧ state.slabsCount = 1 ∧
    (state.slabs 0).slabSize = 2097128 ∧ (state.areaStat 1).spaceUsage = 1048552 :=
  exists_served doubleParam [putOf [1, 0, 65] [7]]
    (fun state => (state.areaStat 1).itemCount = 1 ∧ state.slabsCount = 1 ∧
      (state.slabs 0).slabSize = 2097128 ∧ (state.areaStat 1).spaceUsage = 1048552)
    (by decide +kernel)

end Tair.Mdb
