/-
Slots are taken from pages and given back to them. A slot that comes from a page or from an
eviction is held: it is on the list of the area it was taken for, but its contents are not there
yet.
-/

import Tair.Mdb.Paging

namespace Tair.Mdb

open MdbManager Tair.Library

variable {mdb next : MdbManager} {layout : Layout} {held : Option Slot} {slot : Slot}
  {slab area page : Nat}

/-! ### Counters of the steps -/

namespace Recounts

theorem partToFull : Recounts (fun s => { s with
    fullPagesNo := s.fullPagesNo + 1
    partialPagesNo := s.partialPagesNo - 1 }) (some .part) (some .full) := by
  refine ⟨fun _ => rfl, fun slab which => ?_⟩
  cases which <;> simp [SlabManager.pagesNo]

theorem freeToPart : Recounts (fun s => { s with
    freePagesNo := s.freePagesNo - 1
    partialPagesNo := s.partialPagesNo + 1 }) (some .free) (some .part) := by
  refine ⟨fun _ => rfl, fun slab which => ?_⟩
  cases which <;> simp [SlabManager.pagesNo]

theorem toPart : Recounts (fun s => { s with
    partialPagesNo := s.partialPagesNo + 1 }) none (some .part) := by
  refine ⟨fun _ => rfl, fun slab which => ?_⟩
  cases which <;> simp [SlabManager.pagesNo]

theorem same (which : PageKind) : Recounts id (some which) (some which) := by
  refine ⟨fun _ => rfl, fun slab other => ?_⟩
  rw [id]
  omega

end Recounts

namespace MdbManager

theorem modifySlab_id (mdb : MdbManager) (slab : Nat) : mdb.modifySlab slab id = mdb := by
  unfold modifySlab
  rw [id, Function.update_eq_self]

/-- A page can be linked before its first slot is taken as well as after. -/
theorem linkPage_pop (mdb : MdbManager) (slab page hNext : Nat) (list : PageList) :
    ((mdb.modifyPage page (fun info => { info with
        freeNr := (mdb.pages page).freeNr - 1 })).linkPage slab page list).modifyPage page
          (fun info => { info with freeHead := hNext }) =
      (mdb.modifyPage page (fun info => { info with
        freeNr := info.freeNr - 1
        freeHead := hNext })).linkPage slab page list := by
  simp only [linkPage_eq, modifyPage_eq, pageFirst, if_true]
  congr 1
  funext other
  by_cases same : page = other
  · subst same
    simp only [if_true]
  · simp only [if_neg same]

def popSlot (manager : MdbManager) (page : Nat) : MdbManager :=
  manager.modifyPage page (fun info => { info with
    freeNr := info.freeNr - 1
    freeHead := (manager.items (slotOf (manager.pages page).freeHead)).hNext })

def filePage (manager : MdbManager) (slab page freeNr : Nat) : MdbManager :=
  if freeNr = 0 then
    (manager.linkPage slab page .full).modifySlab slab (fun s =>
      { s with fullPagesNo := s.fullPagesNo + 1, partialPagesNo := s.partialPagesNo - 1 })
  else manager.linkPage slab page (.part (freeNr / partialPageBucket))

theorem takeSlot_eq (mdb : MdbManager) (slab page area : Nat) :
    mdb.takeSlot slab page area =
      ((((mdb.popSlot page).filePage slab page ((mdb.pages page).freeNr - 1)).modifySlab slab
          (fun s => { s with itemTotalCount := s.itemTotalCount + 1 })).linkItem slab
        (slotOf (mdb.pages page).freeHead) area, slotOf (mdb.pages page).freeHead) := by
  unfold takeSlot popSlot filePage
  dsimp only
  have items := fun list => (Moves.linkPage (mdb.modifyPage page (fun info => { info with
    freeNr := (mdb.pages page).freeNr - 1 })) slab page list).items
  by_cases last : (mdb.pages page).freeNr - 1 = 0
  · rw [if_pos last, if_pos last, ← linkPage_pop]
    change ((MdbManager.modifyPage _ page (fun info => { info with
      freeHead := (MdbManager.items (MdbManager.linkPage _ slab page .full) _).hNext })).linkItem
        slab _ area, _) = _
    rw [items]
    rfl
  · rw [if_neg last, if_neg last, ← linkPage_pop]
    change ((MdbManager.modifyPage _ page (fun info => { info with
      freeHead := (MdbManager.items (MdbManager.linkPage _ slab page (.part _)) _).hNext })).linkItem
        slab _ area, _) = _
    rw [items]
    rfl

end MdbManager

theorem Alike.modifySlab {book : SlabManager → SlabManager} (mdb : MdbManager) (slab : Nat)
    (keeps : ∀ s, (book s).bare = s.bare) : Alike mdb (mdb.modifySlab slab book) :=
  congrArg (fun slabs => ({ mdb.bare with slabs } : MdbManager))
    (funext (MdbManager.slabs_keep keeps mdb slab))

theorem Alike.itemTotalCount (mdb : MdbManager) (slab : Nat) (change : UInt64 → UInt64) :
    Alike mdb (mdb.modifySlab slab (fun s =>
      { s with itemTotalCount := change s.itemTotalCount })) :=
  Alike.modifySlab mdb slab fun _ => rfl

namespace Sound

theorem first_free {opened : Option Nat} (sound : Sound mdb layout held opened)
    (owner : layout.owner page = some slab) (pos : 0 < (mdb.pages page).freeNr) :
    link (mdb.pages page).freeHead = some (slotOf (mdb.pages page).freeHead) := by
  rw [sound.freeNrs page slab owner] at pos
  obtain ⟨offset, -, chained⟩ := TallyOn.tallyOn_pos.mp pos
  apply link_of_ne
  intro zero
  apply Chained.first_ne_none sound.chains chained
  unfold chainFirst
  dsimp only
  rw [zero, link_zero]

theorem filePage (sound : Sound mdb layout held (some page)) (owner : layout.owner page = some slab)
    (fewer : (mdb.pages page).freeNr < (mdb.slabs slab).perSlab) :
    Sound (mdb.filePage slab page (mdb.pages page).freeNr) layout held none ∧
      Framed mdb (mdb.filePage slab page (mdb.pages page).freeNr) := by
  unfold MdbManager.filePage
  by_cases last : (mdb.pages page).freeNr = 0
  · rw [if_pos last]
    obtain ⟨closed, moves⟩ := sound.closePage owner (if_pos last) Recounts.partToFull
    exact ⟨closed, moves.framed⟩
  · rw [if_neg last]
    obtain ⟨closed, moves⟩ :=
      sound.closePage owner (homeList_part last (Nat.ne_of_lt fewer)) (Recounts.same .part)
    rw [modifySlab_id] at closed moves
    exact ⟨closed, moves.framed⟩

theorem takeSlot (sound : Sound mdb layout none (some page))
    (owner : layout.owner page = some slab) (pos : 0 < (mdb.pages page).freeNr)
    (taken : mdb.takeSlot slab page area = (next, slot)) :
    Sound next ((layout.rehash slot none).relist slot (some (slab, area))) (some slot) none ∧
      Framed mdb next ∧ layout.chain slot = some (.free page) := by
  have first := sound.first_free owner pos
  have bound := sound.freeNr_le owner
  rw [takeSlot_eq] at taken
  obtain ⟨isNext, isSlot⟩ := Prod.mk.inj taken
  rw [isSlot] at first isNext
  have chained : layout.chain slot = some (.free page) := Chained.place_first sound.chains first
  obtain ⟨rfl, off, within⟩ := sound.settled.freed _ page chained
  have popped : Sound (mdb.popSlot slot.page) (layout.rehash slot none) (some slot)
      (some slot.page) := by
    unfold popSlot
    rw [isSlot]
    exact sound.pop owner first
  have poppedFrame : Framed mdb (mdb.popSlot slot.page) := by
    unfold popSlot
    rw [modifyPage_free mdb slot.page (fun freeNr => freeNr - 1)]
    rfl
  have left : ((mdb.popSlot slot.page).pages slot.page).freeNr =
      (mdb.pages slot.page).freeNr - 1 := by
    unfold popSlot
    rw [modifyPage_free mdb slot.page (fun freeNr => freeNr - 1)]
    exact if_pos rfl
  obtain ⟨filed, filedFrame⟩ := popped.filePage owner (by rw [left, poppedFrame.perSlab]; omega)
  rw [left] at filed filedFrame
  have books := Alike.itemTotalCount ((mdb.popSlot slot.page).filePage slab slot.page
    ((mdb.pages slot.page).freeNr - 1)) slab (· + 1)
  have booked := filed.alike books
  have frame := (poppedFrame.trans filedFrame).trans books.framed
  have inside := within slab owner
  rw [← frame.perSlab] at inside
  have linked := booked.linkItem area owner inside off (by
    intro page free
    rw [Layout.rehash_self] at free
    cases free)
  rw [isNext] at linked
  refine ⟨linked, ?_, chained⟩
  rw [← isNext]
  exact frame.trans (Framed.linkItem _ slab slot area)

end Sound

/-! ### Slots from free memory -/

def MdbItem.Unset (item : MdbItem) : Prop := item.exptime = 0 ∧ itemFlags item.itemId = 0

theorem MdbItem.unset_of_body {item other : MdbItem} (same : item.body = other.body) :
    item.Unset ↔ other.Unset := by
  unfold MdbItem.Unset
  rw [exptime_of_body same, itemId_of_body same]

/-- No slot that is on no list carries anything for the next item. -/
def Unset (manager : MdbManager) (layout : Layout) : Prop :=
  ∀ slot, layout.list slot = none → (manager.items slot).Unset

def Shrinks (manager : MdbManager) (layout : Layout) (next : MdbManager) (relaid : Layout) : Prop :=
  ∀ slot, relaid.Live slot →
    layout.Live slot ∧ (next.items slot).body = (manager.items slot).body

namespace Shrinks

variable {middle : MdbManager} {between relaid : Layout}

theorem refl (mdb : MdbManager) (layout : Layout) : Shrinks mdb layout mdb layout :=
  fun _ found => ⟨found, rfl⟩

theorem trans (first : Shrinks mdb layout middle between)
    (second : Shrinks middle between next relaid) : Shrinks mdb layout next relaid := by
  intro slot found
  obtain ⟨prior, same⟩ := second slot found
  obtain ⟨start, before⟩ := first slot prior
  exact ⟨start, same.trans before⟩

theorem of_framed (framed : Framed mdb next) (live : ∀ slot, relaid.Live slot → layout.Live slot) :
    Shrinks mdb layout next relaid :=
  fun slot found => ⟨live slot found, framed.body slot⟩

end Shrinks

structure Took (manager : MdbManager) (layout : Layout) (next : MdbManager) (relaid : Layout)
    (slot : Slot) (slab area : Nat) : Prop where
  sound : Sound next relaid (some slot) none
  unset : Unset next relaid
  onList : relaid.list slot = some (slab, area)
  shrinks : ∀ other, other ≠ slot → relaid.Live other →
    layout.Live other ∧ (next.items other).body = (manager.items other).body
  kept : ∀ other, other ≠ slot → layout.Live other → relaid.Live other

/-- A slot that was free and is taken as it was. -/
def TookFree (manager : MdbManager) (layout : Layout) (next : MdbManager) (slot : Slot)
    (slab area : Nat) : Prop :=
  ∃ relaid, Took manager layout next relaid slot slab area ∧ relaid.chain slot = none ∧
    (next.items slot).Unset ∧ ¬ layout.Live slot

theorem Took.after {middle : MdbManager} {between relaid : Layout}
    (shrinks : Shrinks mdb layout middle between)
    (kept : ∀ other, layout.Live other → between.Live other)
    (took : Took middle between next relaid slot slab area) :
    Took mdb layout next relaid slot slab area := by
  refine ⟨took.sound, took.unset, took.onList, ?_, ?_⟩
  · intro other ne found
    obtain ⟨prior, same⟩ := took.shrinks other ne found
    obtain ⟨start, before⟩ := shrinks other prior
    exact ⟨start, same.trans before⟩
  · intro other ne found
    exact took.kept other ne (kept other found)

namespace SlabManager

/-- The search may go over the lists from either end. -/
theorem partialHead {slab : SlabManager} {bucket page : Nat} {heads : List Nat}
    (all : ∀ head, head ∈ heads ↔ head ∈ slab.partialHeads)
    (isPage : (heads.find? (· ≠ 0)).getD 0 = page)
    (inside : bucket < slab.partialPagesBucketNo) (real : slab.partialPages bucket ≠ 0) :
    ∃ first, slab.pageHead (.part first) = page ∧ page ≠ 0 := by
  have member := (all _).mpr (List.mem_map.mpr ⟨bucket, List.mem_range.mpr inside, rfl⟩)
  subst isPage
  cases found : heads.find? (· ≠ 0) with
  | none => exact absurd (decide_eq_true real) (List.find?_eq_none.mp found _ member)
  | some head =>
    obtain ⟨first, -, same⟩ := List.mem_map.mp ((all _).mp (List.mem_of_find?_eq_some found))
    have chosen := List.find?_some found
    exact ⟨first, same, of_decide_eq_true chosen⟩

end SlabManager

namespace Sound

section

variable (sound : Sound mdb layout held none)

include sound

theorem listHead_home {list : PageList}
    (starts : (mdb.slabs slab).pageHead list = page) (real : page ≠ 0) :
    layout.owner page = some slab ∧
      homeList (mdb.slabs slab).perSlab (mdb.pages page).freeNr = list := by
  have placed := sound.pages.place_head starts real
  unfold Layout.pagePlace at placed
  rw [if_neg (by simp)] at placed
  obtain ⟨ofSlab, owner, same⟩ := Option.map_eq_some_iff.mp placed
  cases same
  exact ⟨owner, rfl⟩

theorem exists_listed {which : PageKind} (pos : 0 < (mdb.slabs slab).pagesNo which) :
    ∃ page, layout.owner page = some slab ∧
      (homeList (mdb.slabs slab).perSlab (mdb.pages page).freeNr).kind = which ∧
      (mdb.slabs slab).pageHead
        (homeList (mdb.slabs slab).perSlab (mdb.pages page).freeNr) ≠ 0 := by
  obtain ⟨page, counted⟩ := sound.counts.exists_page pos
  unfold Layout.pageKind at counted
  obtain ⟨ofSlab, owner, same⟩ := Option.map_eq_some_iff.mp counted
  rw [if_neg (by simp)] at same
  cases same
  exact ⟨page, owner, rfl, sound.pages.head_ne_zero (pagePlace_none mdb owner)⟩

theorem exists_head {which : PageKind} (pos : 0 < (mdb.slabs slab).pagesNo which) :
    ∃ list : PageList, list.kind = which ∧ (mdb.slabs slab).pageHead list ≠ 0 ∧
      ∀ bucket, list = .part bucket → bucket < (mdb.slabs slab).partialPagesBucketNo := by
  obtain ⟨page, owner, kind, real⟩ := sound.exists_listed pos
  have bound := sound.freeNr_le owner
  refine ⟨_, kind, real, fun bucket home => ?_⟩
  obtain ⟨-, fewer, isBucket⟩ := homeList_eq_part home
  unfold SlabManager.partialPagesBucketNo
  unfold partialPageBucket at isBucket ⊢
  omega

theorem partialPage {heads : List Nat} (pos : 0 < (mdb.slabs slab).pagesNo .part)
    (all : ∀ head, head ∈ heads ↔ head ∈ (mdb.slabs slab).partialHeads)
    (isPage : (heads.find? (· ≠ 0)).getD 0 = page) :
    layout.owner page = some slab ∧ 0 < (mdb.pages page).freeNr ∧
      (mdb.pages page).freeNr ≠ (mdb.slabs slab).perSlab ∧
      homeList (mdb.slabs slab).perSlab (mdb.pages page).freeNr =
        .part ((mdb.pages page).freeNr / partialPageBucket) := by
  obtain ⟨list, kind, real, inside⟩ := sound.exists_head pos
  cases list with
  | full => cases kind
  | free => cases kind
  | part bucket =>
    obtain ⟨first, starts, notZero⟩ :=
      SlabManager.partialHead all isPage (inside bucket rfl) real
    obtain ⟨ofOwner, ofHome⟩ := sound.listHead_home starts notZero
    obtain ⟨ofAbove, fewer, rfl⟩ := homeList_eq_part ofHome
    exact ⟨ofOwner, ofAbove, fewer, ofHome⟩

theorem freePage (pos : 0 < (mdb.slabs slab).pagesNo .free)
    (isPage : (mdb.slabs slab).freePages = page) :
    layout.owner page = some slab ∧ 0 < (mdb.pages page).freeNr ∧
      (mdb.pages page).freeNr = (mdb.slabs slab).perSlab ∧
      homeList (mdb.slabs slab).perSlab (mdb.pages page).freeNr = .free := by
  obtain ⟨list, kind, real, -⟩ := sound.exists_head pos
  cases list with
  | full => cases kind
  | part bucket => cases kind
  | free =>
    have starts : (mdb.slabs slab).pageHead .free = page := isPage
    rw [starts] at real
    obtain ⟨ofOwner, ofHome⟩ := sound.listHead_home starts real
    obtain ⟨above, all⟩ := homeList_eq_free ofHome
    exact ⟨ofOwner, above, all, ofHome⟩

end

theorem took (sound : Sound mdb layout none (some page)) (unset : Unset mdb layout)
    (owner : layout.owner page = some slab) (pos : 0 < (mdb.pages page).freeNr)
    (taken : mdb.takeSlot slab page area = (next, slot)) :
    TookFree mdb layout next slot slab area := by
  obtain ⟨after, framed, chained⟩ := sound.takeSlot owner pos taken
  obtain ⟨-, off, -⟩ := sound.settled.freed slot page chained
  have plain : ∀ other, (next.items other).Unset ↔ (mdb.items other).Unset :=
    fun other => MdbItem.unset_of_body (framed.body other)
  refine ⟨_, ⟨after, ?_, Layout.relist_self _, ?_, ?_⟩, Layout.rehash_self _, ?_, ?_⟩
  · intro other none
    have ne : other ≠ slot := by
      intro same
      rw [same, Layout.relist_self] at none
      cases none
    rw [Layout.relist_of_ne _ ne] at none
    rw [plain]
    exact unset other none
  · intro other _ found
    exact ⟨(Layout.live_rehash_none.mp found).1, framed.body other⟩
  · intro other ne found
    exact Layout.live_rehash_none.mpr ⟨found, ne⟩
  · rw [plain]
    exact unset slot off
  · intro found
    obtain ⟨bucket, hashed⟩ := found
    cases chained.symm.trans hashed

theorem unset_framed (framed : Framed mdb next) (unset : Unset mdb layout) : Unset next layout := by
  intro slot off
  rw [MdbItem.unset_of_body (framed.body slot)]
  exact unset slot off

theorem took_opened {change : SlabManager → SlabManager} {list : PageList}
    (sound : Sound mdb layout none none) (unset : Unset mdb layout)
    (owner : layout.owner page = some slab) (pos : 0 < (mdb.pages page).freeNr)
    (home : homeList (mdb.slabs slab).perSlab (mdb.pages page).freeNr = list)
    (recounts : Recounts change (some list.kind) (some .part))
    (taken : ((mdb.unlinkPage slab page list).modifySlab slab change).takeSlot slab page area =
      (next, slot)) : TookFree mdb layout next slot slab area := by
  obtain ⟨opened, moves⟩ := sound.openPage owner home recounts
  rw [← moves.freeNr] at pos
  obtain ⟨relaid, took, rest⟩ :=
    opened.took (unset_framed moves.framed unset) owner pos taken
  exact ⟨relaid, took.after (Shrinks.of_framed moves.framed (fun _ found => found))
    (fun _ found => found), rest⟩

theorem unset_newPage (unset : Unset mdb layout) (slab index perSlab : Nat) :
    Unset (mdb.newPage slab index) (layout.adopt index slab perSlab) := by
  intro slot off
  by_cases own : slot.page = index
  · exact (newPage_items_self mdb slab own).2.2
  · rw [newPage_items_of_ne own]
    exact unset slot off

theorem took_new {index : Nat} (sound : Sound mdb layout none none)
    (unset : Unset mdb layout) (slabBound : slab < mdb.slabsCount)
    (untaken : mdb.pool.pageBitmap index = false) (pos : 0 < index)
    (below : index < mdb.pool.totalPages)
    (taken : ((mdb.newPage slab index).modifySlab slab (fun s => { s with
      partialPagesNo := s.partialPagesNo + 1 })).takeSlot slab index area = (next, slot)) :
    TookFree mdb layout next slot slab area := by
  have unowned := sound.unowned untaken
  have opened := sound.adopt slabBound untaken pos below Recounts.toPart
  set grown := (mdb.newPage slab index).modifySlab slab
    (fun s => { s with partialPagesNo := s.partialPagesNo + 1 })
  have owner : (layout.adopt index slab (mdb.slabs slab).perSlab).owner index = some slab :=
    Layout.reown_self _
  have freeNr : 0 < (grown.pages index).freeNr := by
    change 0 < ((mdb.newPage slab index).pages index).freeNr
    rw [newPage_pages_self]
    exact (sound.fits.perSlab slab slabBound).1
  have clean : Unset grown (layout.adopt index slab (mdb.slabs slab).perSlab) :=
    unset_newPage unset slab index _
  have shrinks : Shrinks mdb layout grown (layout.adopt index slab (mdb.slabs slab).perSlab) := by
    intro slot found
    rw [sound.settled.live_adopt unowned] at found
    refine ⟨found, ?_⟩
    change ((mdb.newPage slab index).items slot).body = _
    rw [newPage_items_of_ne (sound.settled.page_ne_of_live unowned found)]
  obtain ⟨relaid, took, unchained, plain, absent⟩ := opened.took clean owner freeNr taken
  rw [sound.settled.live_adopt unowned] at absent
  exact ⟨relaid, took.after shrinks (fun other => (sound.settled.live_adopt unowned).mpr), unchained,
    plain, absent⟩

theorem allocNewItem (sound : Sound mdb layout none none) (unset : Unset mdb layout)
    (slabBound : slab < mdb.slabsCount)
    (given : mdb.allocNewItem slab area = .ok (next, some slot)) :
    TookFree mdb layout next slot slab area := by
  unfold MdbManager.allocNewItem at given
  dsimp only at given
  by_cases partly : 0 < (mdb.slabs slab).partialPagesNo
  · rw [if_pos partly] at given
    cases given
    obtain ⟨owner, pos, -, home⟩ := sound.partialPage partly (fun _ => Iff.rfl)
      (Eq.refl (mdb.slabs slab).getPartialPageId)
    apply sound.took_opened unset owner pos home (Recounts.same .part)
    rw [modifySlab_id]
  · rw [if_neg partly] at given
    by_cases empty : 0 < (mdb.slabs slab).freePagesNo
    · rw [if_pos empty] at given
      cases given
      obtain ⟨owner, pos, -, home⟩ := sound.freePage empty rfl
      exact sound.took_opened unset owner pos home Recounts.freeToPart rfl
    · rw [if_neg empty] at given
      split at given
      · cases given
      · cases given
      next paged =>
        cases given
        obtain ⟨rfl, untaken, pos, below⟩ := MemPool.allocPage_some paged
        exact sound.took_new unset slabBound untaken pos below rfl

end Sound

end Tair.Mdb
