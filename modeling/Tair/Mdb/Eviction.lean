/-
Items are evicted. The last item of a list, or an expired one near its end, moves to the front of
the list of the area that needs the slot and leaves the hash table; its contents stay in the slot.
-/

import Tair.Mdb.Removal

namespace Tair.Mdb

open MdbManager Tair.Common Tair.Library

variable {mdb next : MdbManager} {layout : Layout} {slot : Slot} {slab area : Nat}
  {type : AllocType} {now : UInt32}

namespace Sound

theorem evict (sound : Sound mdb layout none none) (unset : Unset mdb layout)
    (onList : layout.list slot = some (slab, (mdb.items slot).area)) (area : Nat) :
    Took mdb layout (mdb.evict slab slot area)
        (layout.relist slot (some (slab, area))) slot slab area ∧
      ((mdb.evict slab slot area).items slot).body =
        { mdb.items slot with itemId := Mdb.clearFlags (mdb.items slot).itemId }.body := by
  have clean := sound.clearFlags slot
  have plain : layout.list slot = some (slab, ((mdb.modifyItem slot (fun item =>
      { item with itemId := Mdb.clearFlags item.itemId })).items slot).area) := by
    rw [items_modifyItem_self]
    exact onList
  obtain ⟨moved, framed⟩ := clean.updateItem area plain
  have contents : ∀ other, other ≠ slot →
      ((mdb.evict slab slot area).items other).body = (mdb.items other).body := by
    intro other ne
    have same := framed.body other
    rw [items_modifyItem_of_ne _ _ ne] at same
    exact same
  refine ⟨⟨moved, ?_, Layout.relist_self _, ?_, fun _ _ found => found⟩, ?_⟩
  · intro other off
    have ne : other ≠ slot := by
      intro same
      rw [same, Layout.relist_self] at off
      cases off
    rw [Layout.relist_of_ne _ ne] at off
    rw [MdbItem.unset_of_body (contents other ne)]
    exact unset other off
  · intro other ne found
    exact ⟨found, contents other ne⟩
  · have same := framed.body slot
    rw [items_modifyItem_self] at same
    exact same

end Sound

/-! ### Which item goes -/

namespace MdbManager

theorem expiredFrom_onList {place : Slot → Option (Nat × Nat)} {index : Nat × Nat}
    (lists : ItemLists mdb place) :
    ∀ {times pos : Nat}, (pos ≠ 0 → place (slotOf pos) = some index) →
      mdb.expiredFrom now times pos = some slot → place slot = some index := by
  intro times
  induction times with
  | zero =>
    intro pos start hit
    cases hit
  | succ times ih =>
    intro pos start hit
    unfold expiredFrom at hit
    dsimp only at hit
    split at hit
    · cases hit
    · have here := start ‹_›
      split at hit
      · cases hit
        exact here
      · apply ih _ hit
        intro real
        exact lists.threaded.backward.place_next here (link_of_ne real)

theorem evictIndexFrom_tail {s : SlabManager} {index : Nat} :
    ∀ {times start : Nat}, evictIndexFrom s times start = some index →
      (s.itemList index).itemTail ≠ 0 := by
  intro times
  induction times with
  | zero =>
    intro start hit
    cases hit
  | succ times ih =>
    intro start hit
    unfold evictIndexFrom at hit
    split at hit
    · cases hit
      assumption
    · exact ih hit

end MdbManager

structure Evicted (manager : MdbManager) (layout : Layout) (next : MdbManager) (relaid : Layout)
    (slot : Slot) (slab area : Nat) : Prop where
  took : Took manager layout next relaid slot slab area
  before : layout.Live slot
  after : relaid.Live slot
  body : (next.items slot).body =
    { manager.items slot with itemId := clearFlags (manager.items slot).itemId }.body

theorem Evicted.alike {booked : MdbManager} {relaid : Layout}
    (evicted : Evicted mdb layout next relaid slot slab area)
    (books : Alike next booked) : Evicted mdb layout booked relaid slot slab area := by
  obtain ⟨⟨sound, unset, onList, shrinks, kept⟩, before, after, body⟩ := evicted
  refine ⟨⟨sound.alike books, Sound.unset_framed books.framed unset, onList, ?_, kept⟩, before,
    after, ?_⟩
  · intro other ne found
    rw [books.moves.items]
    exact shrinks other ne found
  · rw [books.moves.items]
    exact body

namespace Sound

section

variable (sound : Sound mdb layout none none) (unset : Unset mdb layout)

include sound unset

theorem evicted {old : Nat} (onList : layout.list slot = some (slab, old)) (area : Nat) :
    Evicted mdb layout (mdb.evict slab slot area) (layout.relist slot (some (slab, area)))
      slot slab area := by
  obtain ⟨isArea, found⟩ := sound.settled.live slot slab old onList (by simp)
  rw [isArea] at onList
  obtain ⟨took, body⟩ := sound.evict unset onList area
  exact ⟨took, found, found, body⟩

theorem evictSelf (result : mdb.evictSelf slab area now = some (next, slot, type)) :
    type ≠ .allocNew ∧ ∃ relaid, Evicted mdb layout next relaid slot slab area := by
  unfold MdbManager.evictSelf at result
  dsimp only at result
  split at result
  · cases result
  · have tail : layout.list (slotOf ((mdb.slabs slab).itemList area).itemTail) =
        some (slab, area) := sound.items.threaded.backward.place_first (link_of_ne ‹_›)
    have ofArea : ∀ slot, layout.list slot = some (slab, area) →
        (mdb.items slot).area = area :=
      fun slot onList => (sound.settled.live slot slab area onList (by simp)).1.symm
    split at result
    · cases result
      have onList := expiredFrom_onList sound.items (fun _ => tail) ‹_›
      refine ⟨by simp, layout.relist slot (some (slab, area)), ?_⟩
      rw [ofArea slot onList]
      exact sound.evicted unset onList area
    · cases result
      refine ⟨by simp, layout.relist (slotOf ((mdb.slabs slab).itemList area).itemTail)
        (some (slab, area)), ?_⟩
      rw [ofArea _ tail]
      exact sound.evicted unset tail area

theorem evictAny (result : mdb.evictAny slab area now = .ok (next, slot, type)) :
    type ≠ .allocNew ∧ ∃ relaid, Evicted mdb layout next relaid slot slab area := by
  unfold MdbManager.evictAny at result
  dsimp only at result
  split at result
  · cases result
  · rename_i index found
    cases result
    have tail : layout.list (slotOf ((mdb.slabs slab).itemList index).itemTail) =
        some (slab, index) :=
      sound.items.threaded.backward.place_first (link_of_ne (evictIndexFrom_tail found))
    have turn : Alike mdb (mdb.modifySlab slab (fun s => { s with evictIndex := index })) :=
      Alike.modifySlab mdb slab fun _ => rfl
    refine ⟨?_, layout.relist (slotOf ((mdb.slabs slab).itemList index).itemTail)
      (some (slab, area)), ?_⟩
    · split
      · simp
      · simp
    · have evicted := (sound.alike turn).evicted (unset_framed turn.framed unset) tail area
      have took := evicted.took
      exact ⟨{ took with }, evicted.before,
        evicted.after, evicted.body⟩

end

end Sound

namespace MdbManager

variable (manager : MdbManager)

def hasRoom (slab : Nat) : Bool :=
  0 < (manager.slabs slab).partialPagesNo ∨ 0 < (manager.slabs slab).freePagesNo ∨
    manager.pool.freePages ≠ 0

/-- Among the last fifty items of the area one that has expired, else the last one. -/
def ownVictim (slab area : Nat) (now : UInt32) : Option Slot :=
  let tail := ((manager.slabs slab).itemList area).itemTail
  if tail = 0 then none else some ((manager.expiredFrom now 50 tail).getD (slotOf tail))

def anyVictim (slab : Nat) : Option Slot :=
  let s := manager.slabs slab
  (evictIndexFrom s (tairMaxAreaCount + 1)
    (if s.evictIndex ≥ tairMaxAreaCount then 0 else s.evictIndex)).map
      (fun index => slotOf (s.itemList index).itemTail)

def victim (slab area : Nat) (now : UInt32) : Option Slot :=
  if manager.isQuotaExceed area then
    (manager.ownVictim slab area now).or
      (if manager.hasRoom slab then none else manager.anyVictim slab)
  else if manager.hasRoom slab then none
  else (manager.ownVictim slab area now).or (manager.anyVictim slab)

def putVictim (key data : DataEntry) (now : UInt32) : Option Slot :=
  (manager.getSlabmng (key.data.length + data.data.length + mdbItemSize)).bind
    (fun slab => manager.victim slab (keyArea key.data) now)

theorem evictSelf_some (result : mdb.evictSelf slab area now = some (next, slot, type)) :
    mdb.ownVictim slab area now = some slot := by
  unfold evictSelf at result
  unfold ownVictim
  dsimp only at result ⊢
  split at result
  · cases result
  next real =>
    rw [if_neg real]
    split at result
    next found =>
      cases result
      rw [found]
      rfl
    next found =>
      cases result
      rw [found]
      rfl

theorem evictSelf_none (result : mdb.evictSelf slab area now = none) :
    mdb.ownVictim slab area now = none := by
  unfold evictSelf at result
  unfold ownVictim
  dsimp only at result ⊢
  split at result
  next zero => rw [if_pos zero]
  · split at result
    · cases result
    · cases result

theorem allocByEvictAny_victim
    (result : mdb.allocByEvictAny slab area now = .ok (next, slot, type)) :
    mdb.anyVictim slab = some slot := by
  obtain ⟨⟨taken, ofSlot, ofType⟩, hit, same⟩ := ok_of_map result
  cases same
  unfold evictAny at hit
  unfold anyVictim
  dsimp only at hit ⊢
  split at hit
  · cases hit
  next found =>
    cases hit
    rw [found]
    rfl

theorem allocNewItem_none {taken : MdbManager}
    (result : mdb.allocNewItem slab area = .ok (taken, none)) :
    mdb.hasRoom slab = false ∧ taken = mdb := by
  unfold allocNewItem at result
  unfold hasRoom
  dsimp only at result
  split at result
  · cases result
  next noPart =>
    split at result
    · cases result
    next noFree =>
      split at result
      · cases result
      next paged =>
        cases result
        obtain ⟨same, noPage⟩ := MemPool.allocPage_none paged
        rw [same]
        refine ⟨?_, rfl⟩
        rw [decide_eq_false_iff_not]
        omega
      · cases result

/-- Where `alloc_item` takes a slot from. -/
inductive Taken (manager : MdbManager) (slab area : Nat) (now : UInt32) :
    MdbManager → Slot → AllocType → Prop
  | new {taken : MdbManager} {slot : Slot}
      (hit : manager.allocNewItem slab area = .ok (taken, some slot)) :
      Taken manager slab area now (taken.bookNew slab area) slot .allocNew
  | self {taken : MdbManager} {slot : Slot} {type : AllocType} (exceed : Bool)
      (hit : manager.evictSelf slab area now = some (taken, slot, type))
      (picked : manager.victim slab area now = some slot) :
      Taken manager slab area now (taken.bookSelf slab type exceed) slot type
  | any {next : MdbManager} {slot : Slot} {type : AllocType}
      (hit : manager.allocByEvictAny slab area now = .ok (next, slot, type))
      (picked : manager.victim slab area now = some slot) :
      Taken manager slab area now next slot type

theorem taken_allocItem (result : mdb.allocItem slab area now = .ok (next, slot, type)) :
    Taken mdb slab area now next slot type := by
  unfold allocItem at result
  obtain ⟨-, result⟩ := ok_of_check result
  split at result
  next exceeds =>
    split at result
    next own =>
      cases result
      refine .self true own ?_
      rw [victim, if_pos exceeds, evictSelf_some own]
      rfl
    next own =>
      obtain ⟨⟨taken, answer⟩, hit, rest⟩ := ok_of_bind result
      cases answer with
      | some place =>
        cases rest
        exact .new hit
      | none =>
        obtain ⟨full, rfl⟩ := allocNewItem_none hit
        refine .any rest ?_
        rw [victim, if_pos exceeds, evictSelf_none own, full]
        exact allocByEvictAny_victim rest
  next below =>
    obtain ⟨⟨taken, answer⟩, hit, rest⟩ := ok_of_bind result
    cases answer with
    | some place =>
      cases rest
      exact .new hit
    | none =>
      obtain ⟨full, rfl⟩ := allocNewItem_none hit
      have picked : taken.victim slab area now =
          (taken.ownVictim slab area now).or (taken.anyVictim slab) := by
        rw [victim, if_neg below, full]
        rfl
      dsimp only at rest
      split at rest
      next own =>
        cases rest
        refine .self false own ?_
        rw [picked, evictSelf_some own]
        rfl
      next own =>
        refine .any rest ?_
        rw [picked, evictSelf_none own]
        exact allocByEvictAny_victim rest

theorem allocItem_victim (result : mdb.allocItem slab area now = .ok (next, slot, type))
    (old : type ≠ .allocNew) : mdb.victim slab area now = some slot := by
  cases taken_allocItem result with
  | new hit => exact absurd rfl old
  | self exceed hit picked => exact picked
  | any hit picked => exact picked

end MdbManager

/-! ### `alloc_item` -/

namespace Alike

variable (mdb : MdbManager) (slab : Nat)

theorem bookNew (area : Nat) : Alike mdb (mdb.bookNew slab area) :=
  Alike.modifySlab mdb slab fun _ => rfl

theorem evictTotalCount : Alike mdb (mdb.modifySlab slab (fun s =>
    { s with evictTotalCount := s.evictTotalCount + 1 })) :=
  Alike.modifySlab mdb slab fun _ => rfl

theorem bookSelf (type : AllocType) (exceed : Bool) :
    Alike mdb (mdb.bookSelf slab type exceed) := by
  unfold MdbManager.bookSelf
  split
  · exact evictTotalCount mdb slab
  · rfl

theorem bookAny (area : Nat) (slot : Slot) (type : AllocType) :
    Alike mdb (mdb.bookAny slab area slot type) := by
  unfold MdbManager.bookAny
  dsimp only
  refine Eq.trans (bookNew _ slab area) ?_
  split
  · exact Eq.trans (Alike.modifySlab _ slab fun _ => rfl) (evictTotalCount mdb slab)
  · exact Alike.modifySlab mdb slab fun _ => rfl

end Alike

inductive Allocated (manager : MdbManager) (layout : Layout) (next : MdbManager) (slot : Slot)
    (slab area : Nat) : AllocType → Prop
  | fresh (relaid : Layout) (took : Took manager layout next relaid slot slab area)
      (unchained : relaid.chain slot = none) (plain : (next.items slot).Unset)
      (absent : ¬ layout.Live slot) :
      Allocated manager layout next slot slab area .allocNew
  | evicted (relaid : Layout) {type : AllocType} (old : type ≠ .allocNew)
      (evicted : Evicted manager layout next relaid slot slab area) :
      Allocated manager layout next slot slab area type

namespace Sound

section

variable (sound : Sound mdb layout none none) (unset : Unset mdb layout)

include sound unset

theorem allocByEvictAny (result : mdb.allocByEvictAny slab area now = .ok (next, slot, type)) :
    Allocated mdb layout next slot slab area type := by
  unfold MdbManager.allocByEvictAny at result
  obtain ⟨⟨taken, ofSlot, ofType⟩, hit, same⟩ := ok_of_map result
  cases same
  obtain ⟨old, relaid, evicted⟩ := sound.evictAny unset hit
  exact .evicted relaid old (evicted.alike (Alike.bookAny taken slab area ofSlot ofType))

theorem allocated_self {exceed : Bool} {taken : MdbManager}
    (result : mdb.evictSelf slab area now = some (taken, slot, type)) :
    Allocated mdb layout (taken.bookSelf slab type exceed) slot slab area type := by
  obtain ⟨old, relaid, evicted⟩ := sound.evictSelf unset result
  exact .evicted relaid old (evicted.alike (Alike.bookSelf taken slab type exceed))

theorem allocated_new {taken : MdbManager} (slabBound : slab < mdb.slabsCount)
    (result : mdb.allocNewItem slab area = .ok (taken, some slot)) :
    Allocated mdb layout (taken.bookNew slab area) slot slab area .allocNew := by
  obtain ⟨relaid, took, unchained, plain, absent⟩ := sound.allocNewItem unset slabBound result
  have books := Alike.bookNew taken slab area
  refine .fresh relaid ⟨took.sound.alike books, unset_framed books.framed took.unset, took.onList,
    took.shrinks, took.kept⟩ unchained plain absent

theorem allocItem (slabBound : slab < mdb.slabsCount)
    (result : mdb.allocItem slab area now = .ok (next, slot, type)) :
    Allocated mdb layout next slot slab area type := by
  cases taken_allocItem result with
  | new hit => exact sound.allocated_new unset slabBound hit
  | self exceed hit => exact sound.allocated_self unset hit
  | any hit => exact sound.allocByEvictAny unset hit

end

theorem dropEvicted {bare : MdbManager} (given : Allocated mdb layout next slot slab area type)
    (lost : next.dropEvicted slot type = .ok bare) :
    ∃ relaid, Took mdb layout bare relaid slot slab area ∧ relaid.chain slot = none ∧
      ((type = .allocNew ∧ (bare.items slot).Unset) ∨
        (type ≠ .allocNew ∧ layout.Live slot ∧ itemFlags (bare.items slot).itemId = 0 ∧
          (bare.items slot).exptime = (mdb.items slot).exptime)) := by
  unfold MdbManager.dropEvicted at lost
  cases given with
  | fresh relaid took unchained plain absent =>
    rw [if_pos rfl] at lost
    cases lost
    exact ⟨relaid, took, unchained, Or.inl ⟨rfl, plain⟩⟩
  | evicted relaid old evicted =>
    rw [if_neg old] at lost
    have books := Alike.bookGone next (next.items slot)
    obtain ⟨gone, framed, -⟩ :=
      (evicted.took.sound.alike books).remove evicted.after (Or.inr rfl) lost
    have frame := books.framed.trans framed
    have body := (frame.body slot).trans evicted.body
    refine ⟨relaid.rehash slot none, ⟨gone, unset_framed frame evicted.took.unset,
      evicted.took.onList, ?_, ?_⟩, Layout.rehash_self _, Or.inr ⟨old, evicted.before, ?_, ?_⟩⟩
    · intro other ne found
      obtain ⟨before, same⟩ :=
        evicted.took.shrinks other ne (Layout.live_rehash_none.mp found).1
      exact ⟨before, (frame.body other).trans same⟩
    · intro other ne found
      exact Layout.live_rehash_none.mpr ⟨evicted.took.kept other ne found, ne⟩
    · rw [MdbItem.itemId_of_body body]
      exact itemFlags_clearFlags _
    · have exptime := MdbItem.exptime_of_body body
      exact exptime

end Sound

end Tair.Mdb
