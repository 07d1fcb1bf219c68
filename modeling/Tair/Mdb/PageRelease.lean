/-
A slab gives up a page. A page that is not empty is cleared slot by slot and goes back to the pool
with its last item, unless the slab has no third page. The slots to clear are told by their
neighbours, so an item alone on its list is taken for a free slot and stays.
-/

import Tair.Mdb.Capacity

namespace Tair.Mdb

open MdbManager Tair.Common Tair.Library

/-! ### The page that is chosen -/

def MdbManager.pageToFree (manager : MdbManager) (slab : Nat) : Nat :=
  let s := manager.slabs slab
  if 0 < s.freePagesNo then s.freePages
  else if 0 < s.partialPagesNo then s.getTheMostFreeItemsOfPartialPageId
  else s.fullPages

namespace Sound

variable {mdb : MdbManager} {layout : Layout} {slab page : Nat}

theorem fullPage (sound : Sound mdb layout none none) (pos : 0 < (mdb.slabs slab).pagesNo .full)
    (isPage : (mdb.slabs slab).fullPages = page) :
    layout.owner page = some slab ∧ (mdb.pages page).freeNr ≠ (mdb.slabs slab).perSlab := by
  obtain ⟨list, kind, real, -⟩ := sound.exists_head pos
  cases list with
  | free => cases kind
  | part bucket => cases kind
  | full =>
    have starts : (mdb.slabs slab).pageHead .full = page := isPage
    rw [starts] at real
    obtain ⟨ofOwner, ofHome⟩ := sound.listHead_home starts real
    have room := (sound.fits.perSlab slab (sound.settled.owned page slab ofOwner).1).1
    refine ⟨ofOwner, fun all => ?_⟩
    cases ofHome.symm.trans (homeList_free (all ▸ room) all)

theorem emptied_iff {slot : Slot} (sound : Sound mdb layout none none)
    (owner : layout.owner slot.page = some slab)
    (inside : slot.offset < (mdb.slabs slab).perSlab) (found : layout.Live slot) :
    (mdb.pages slot.page).freeNr + 1 = (mdb.slabs slab).perSlab ↔
      ∀ other : Slot, other.page = slot.page → other ≠ slot → layout.list other = none := by
  set rest := (Finset.range (mdb.slabs slab).perSlab).erase slot.offset with isRest
  set chains := fun offset => layout.chain ⟨slot.page, offset⟩
  have others : (mdb.pages slot.page).freeNr = tallyOn rest chains (some (.free slot.page)) := by
    rw [sound.freeNrs slot.page slab owner, isRest]
    unfold tallyOn
    rw [Finset.filter_erase, Finset.erase_eq_of_notMem]
    intro member
    obtain ⟨bucket, hashed⟩ := found
    have free : layout.chain slot = some (.free slot.page) := (Finset.mem_filter.mp member).2
    rw [hashed] at free
    cases free
  have many : rest.card + 1 = (mdb.slabs slab).perSlab := by
    rw [isRest, Finset.card_erase_add_one (Finset.mem_range.mpr inside), Finset.card_range]
  constructor
  · intro bare other samePage ne
    have all : tallyOn rest chains (some (.free slot.page)) = rest.card := by omega
    by_contra listed
    obtain ⟨⟨ofSlab, area⟩, placed⟩ := Option.ne_none_iff_exists'.mp listed
    obtain ⟨ofOwner, within⟩ := sound.settled.listed other ofSlab area placed
    rw [samePage, owner] at ofOwner
    cases ofOwner
    have offset : other.offset ≠ slot.offset := by
      intro same
      apply ne
      cases other
      cases slot
      cases samePage
      cases same
      rfl
    have free := TallyOn.forall_of_tallyOn_eq_card all other.offset
      (Finset.mem_erase.mpr ⟨offset, Finset.mem_range.mpr within⟩)
    dsimp only [chains] at free
    rw [← samePage] at free
    exact listed (sound.settled.freed other other.page free).2.1
  · intro unlisted
    have all : tallyOn rest chains (some (.free slot.page)) = rest.card := by
      refine TallyOn.tallyOn_eq_card fun offset member => ?_
      obtain ⟨ne, within⟩ := Finset.mem_erase.mp member
      have off := unlisted ⟨slot.page, offset⟩ rfl fun same => ne (congrArg Slot.offset same)
      exact sound.settled.kept ⟨slot.page, offset⟩ slab owner (Finset.mem_range.mp within) off
        (by simp)
    omega

end Sound

/-! ### Clearing a page -/

/-- What became of the page: it stands as long as it has an item, is kept where there is only one
other page, and has gone else. -/
inductive Fate (manager next : MdbManager) (relaid : Layout) (slab page : Nat) : Prop
  | standing (slot : Slot) (onPage : slot.page = page) (listed : relaid.list slot ≠ none)
      (pool : next.pool = manager.pool)
      (owned : (next.slabs slab).pagesOwned = (manager.slabs slab).pagesOwned)
  | kept (empty : ∀ slot : Slot, slot.page = page → relaid.list slot = none)
      (few : (manager.slabs slab).pagesOwned ≤ 2) (pool : next.pool = manager.pool)
      (owned : (next.slabs slab).pagesOwned = (manager.slabs slab).pagesOwned)
  | returned (empty : ∀ slot : Slot, slot.page = page → relaid.list slot = none)
      (many : 2 < (manager.slabs slab).pagesOwned) (pool : next.pool = manager.pool.freePage page)
      (owned : (next.slabs slab).pagesOwned = (manager.slabs slab).pagesOwned - 1)

/-- In the middle of clearing a page: which lists still have which items, after so many slots were
looked at. -/
structure Clearing (manager : MdbManager) (layout : Layout) (slab page : Nat) (seen : List Nat)
    (next : MdbManager) (relaid : Layout) : Prop where
  intact : Intact next relaid
  shrinks : Shrinks manager layout next relaid
  apart : ∀ slot : Slot, slot.page ≠ page → relaid.list slot = layout.list slot
  before : ∀ slot index, relaid.list slot = some index → layout.list slot = some index
  left : ∀ slot index, layout.list slot = some index → ∃ other, relaid.list other = some index
  alone : ∀ offset ∈ seen, ∀ index other, relaid.list ⟨page, offset⟩ = some index →
    relaid.list other = some index → other = ⟨page, offset⟩
  fate : Fate manager next relaid slab page

namespace Clearing

variable {mdb middle next : MdbManager} {layout relaid : Layout} {slab page offset : Nat}
  {seen : List Nat}

theorem list_iff_live {mdb : MdbManager} {layout : Layout} {slot : Slot}
    (intact : Intact mdb layout) : layout.list slot ≠ none ↔ layout.Live slot := by
  constructor
  · intro listed
    obtain ⟨index, placed⟩ := Option.ne_none_iff_exists'.mp listed
    exact intact.live_of_list placed
  · intro found
    exact intact.1.settled.onList slot found (by simp)

theorem pass (clearing : Clearing mdb layout slab page seen next relaid)
    (unlinked : (next.items ⟨page, offset⟩).prev = 0 ∧ (next.items ⟨page, offset⟩).next = 0) :
    Clearing mdb layout slab page (offset :: seen) next relaid := by
  refine ⟨clearing.intact, clearing.shrinks, clearing.apart, clearing.before, clearing.left, ?_,
    clearing.fate⟩
  intro other member index slot listed same
  cases List.mem_cons.mp member with
  | inl isOffset =>
    subst isOffset
    exact clearing.intact.1.items.threaded.alone listed (link_eq_none.mpr unlinked.1)
      (link_eq_none.mpr unlinked.2) same
  | inr prior => exact clearing.alone other prior index slot listed same

section

variable (clearing : Clearing mdb layout slab page seen middle relaid)
  (owner : layout.owner page = some slab)

include clearing owner

theorem fate_removed {slot : Slot} {after : Layout} (sound : Sound mdb layout none none)
    (onPage : slot.page = page) (found : relaid.Live slot)
    (gone : middle.removeItem slot = .ok next) (removes : Removes middle relaid next after slot) :
    Fate mdb next after slab page := by
  have intact := clearing.intact
  have listedNow := (list_iff_live intact).mpr found
  subst onPage
  cases clearing.fate with
  | kept empty _ _ _ => exact absurd (empty slot rfl) listedNow
  | returned empty _ _ _ => exact absurd (empty slot rfl) listedNow
  | standing _ _ _ pool owned =>
    obtain ⟨ofSlab, onList, ofOwner, inside, isSlab⟩ := intact.1.onList found
    have same : ofSlab = slab := by
      obtain ⟨prior, -⟩ := sound.settled.listed slot ofSlab _ (clearing.before slot _ onList)
      exact Option.some.inj (prior.symm.trans owner)
    subst same
    have freed := intact.freed found gone
    rw [isSlab] at freed
    have last := intact.1.emptied_iff ofOwner inside found
    have offList : after.list slot = none := by
      by_contra listed
      exact removes.gone ((list_iff_live ⟨removes.sound, removes.unset⟩).mp listed)
    have empty : (middle.pages slot.page).freeNr + 1 = (middle.slabs ofSlab).perSlab →
        ∀ other : Slot, other.page = slot.page → after.list other = none := by
      intro bare other samePage
      by_cases isSlot : other = slot
      · rw [isSlot]
        exact offList
      · rw [removes.list other isSlot]
        exact last.mp bare other samePage isSlot
    cases freed with
    | partly more upkeep =>
      have remains : ∃ other : Slot, other.page = slot.page ∧ other ≠ slot ∧
          relaid.list other ≠ none := by
        by_contra none
        refine more (last.mpr fun other samePage ne => ?_)
        by_contra listed
        exact none ⟨other, samePage, ne, listed⟩
      obtain ⟨other, samePage, ne, listed⟩ := remains
      rw [← removes.list other ne] at listed
      refine .standing other samePage listed (upkeep.pool.trans pool) ?_
      rw [upkeep.owned, ite_self, add_zero]
      exact owned
    | kept bare few upkeep =>
      refine .kept (empty bare) ?_ (upkeep.pool.trans pool) ?_
      · rw [← owned]
        exact few
      · rw [upkeep.owned, ite_self, add_zero]
        exact owned
    | returned bare many upkeep =>
      refine .returned (empty bare) ?_ ?_ ?_
      · rw [← owned]
        exact many
      · rw [← pool]
        have id := (intact.1.settled.owned slot.page ofSlab ofOwner).2.2.2.2
        refine upkeep.pool.trans ?_
        exact congrArg middle.pool.freePage id
      · rw [upkeep.owned, if_pos rfl, ← owned]
        rfl

theorem remove (sound : Sound mdb layout none none)
    (linked : ¬ ((middle.items ⟨page, offset⟩).prev = 0 ∧ (middle.items ⟨page, offset⟩).next = 0))
    (removed : middle.removeItem ⟨page, offset⟩ = .ok next) :
    ∃ after, Clearing mdb layout slab page (offset :: seen) next after := by
  have intact := clearing.intact
  have threaded := intact.1.items.threaded
  have onList : relaid.list ⟨page, offset⟩ ≠ none :=
    fun off => linked (intact.1.blank _ off (by simp))
  obtain ⟨index, placed⟩ := Option.ne_none_iff_exists'.mp onList
  have found := intact.live_of_list placed
  obtain ⟨after, intactAfter, removes⟩ := intact.removeItem found removed
  -- the list is not left empty
  have neighbour : ∃ other, other ≠ ⟨page, offset⟩ ∧ relaid.list other = some index := by
    by_cases first : middle.itemPrev ⟨page, offset⟩ = none
    · by_cases last : middle.itemNext ⟨page, offset⟩ = none
      · exact absurd ⟨link_eq_none.mp first, link_eq_none.mp last⟩ linked
      · obtain ⟨other, leads⟩ := Option.ne_none_iff_exists'.mp last
        refine ⟨other, fun same => ?_, threaded.forward.place_next placed leads⟩
        rw [same] at leads
        exact threaded.forward.next_ne placed leads
    · obtain ⟨other, leads⟩ := Option.ne_none_iff_exists'.mp first
      refine ⟨other, fun same => ?_, threaded.backward.place_next placed leads⟩
      rw [same] at leads
      exact threaded.backward.next_ne placed leads
  have gone : after.list ⟨page, offset⟩ = none := by
    by_contra listed
    exact removes.gone ((list_iff_live intactAfter).mp listed)
  have fewer : ∀ slot place, after.list slot = some place → relaid.list slot = some place := by
    intro slot place listed
    by_cases same : slot = ⟨page, offset⟩
    · rw [same, gone] at listed
      cases listed
    · rw [removes.list slot same] at listed
      exact listed
  refine ⟨after, intactAfter, clearing.shrinks.trans removes.shrinks, ?_, ?_, ?_, ?_,
    clearing.fate_removed owner sound rfl found removed removes⟩
  · intro slot apart
    rw [removes.list slot (fun same => apart (congrArg Slot.page same))]
    exact clearing.apart slot apart
  · intro slot place listed
    exact clearing.before slot place (fewer slot place listed)
  · intro slot place listed
    obtain ⟨other, still⟩ := clearing.left slot place listed
    by_cases same : other = ⟨page, offset⟩
    · rw [same, placed] at still
      cases still
      obtain ⟨another, ne, with_⟩ := neighbour
      refine ⟨another, ?_⟩
      rw [removes.list another ne]
      exact with_
    · refine ⟨other, ?_⟩
      rw [removes.list other same]
      exact still
  · intro other member place slot listed same
    cases List.mem_cons.mp member with
    | inl isOffset =>
      rw [isOffset, gone] at listed
      cases listed
    | inr prior =>
      exact clearing.alone other prior place slot (fewer _ _ listed) (fewer _ _ same)

theorem rounds {offsets : List Nat} (sound : Sound mdb layout none none)
    (looped : offsets.foldlM (fun (clean : MdbManager) offset =>
      let item := clean.items ⟨page, offset⟩
      if item.prev = 0 ∧ item.next = 0 then .ok clean
      else clean.removeItem ⟨page, offset⟩) middle = .ok next) :
    ∃ after, Clearing mdb layout slab page (offsets.reverse ++ seen) next after := by
  induction offsets generalizing middle relaid seen with
  | nil =>
    cases looped
    exact ⟨relaid, clearing⟩
  | cons offset rest ih =>
    rw [List.foldlM_cons] at looped
    obtain ⟨between, one, others⟩ := ok_of_bind looped
    rw [List.reverse_cons, List.append_assoc]
    dsimp only at one
    split at one
    next unlinked =>
      cases one
      exact ih (clearing.pass unlinked) others
    next linked =>
      obtain ⟨after, more⟩ := clearing.remove owner sound linked one
      exact ih more others

end

theorem clearPage (intact : Intact mdb layout) (owner : layout.owner page = some slab)
    (used : (mdb.pages page).freeNr ≠ (mdb.slabs slab).perSlab)
    (clean : mdb.clearPage slab page = .ok next) :
    ∃ after, Clearing mdb layout slab page (List.range (mdb.slabs slab).perSlab).reverse next
      after := by
  obtain ⟨offset, listed⟩ := intact.1.listed_of_used owner used
  have begun : Clearing mdb layout slab page [] mdb layout :=
    ⟨intact, Shrinks.refl mdb layout, fun _ _ => rfl, fun _ _ same => same,
      fun slot _ same => ⟨slot, same⟩, fun _ member => absurd member List.not_mem_nil,
      .standing ⟨page, offset⟩ rfl listed rfl rfl⟩
  obtain ⟨after, whole⟩ := begun.rounds owner intact.1 clean
  rw [List.append_nil] at whole
  exact ⟨after, whole⟩

/-- The page is empty in the end if every area on it has an item of the slab elsewhere. -/
theorem empty_iff (intact : Intact mdb layout) (owner : layout.owner page = some slab)
    (clearing : Clearing mdb layout slab page
      (List.range (mdb.slabs slab).perSlab).reverse next relaid) :
    (∀ slot : Slot, slot.page = page → relaid.list slot = none) ↔
      ∀ slot, mdb.Stored slot → slot.page = page → ∃ other, mdb.Stored other ∧
        other.page ≠ page ∧ slabId (mdb.items other).itemId = slab ∧
        (mdb.items other).area = (mdb.items slot).area := by
  have place : ∀ slot, mdb.Stored slot → slot.page = page →
      layout.list slot = some (slab, (mdb.items slot).area) := by
    intro slot stored onPage
    obtain ⟨ofSlab, onList, ofOwner, -, -⟩ := intact.1.onList (intact.1.stored_iff.mp stored)
    rw [onPage, owner] at ofOwner
    cases ofOwner
    exact onList
  constructor
  · intro empty slot stored onPage
    obtain ⟨other, still⟩ := clearing.left slot _ (place slot stored onPage)
    have onList := clearing.before other _ still
    obtain ⟨isArea, found⟩ := intact.1.settled.live other slab _ onList (by simp)
    obtain ⟨ofOwner, inside⟩ := intact.1.settled.listed other slab _ onList
    refine ⟨other, intact.stored found, fun apart => ?_,
      (intact.1.settled.ids other slab ofOwner inside).slab, isArea.symm⟩
    rw [empty other apart] at still
    cases still
  · intro shared slot onPage
    by_contra listed
    obtain ⟨index, still⟩ := Option.ne_none_iff_exists'.mp listed
    have onList := clearing.before slot index still
    have stored := intact.stored (intact.live_of_list onList)
    have isIndex := Option.some.inj (onList.symm.trans (place slot stored onPage))
    obtain ⟨other, otherStored, apart, isSlab, sameArea⟩ := shared slot stored onPage
    obtain ⟨ofSlab, otherList, -, -, otherSlab⟩ :=
      intact.1.onList (intact.1.stored_iff.mp otherStored)
    rw [← otherSlab, isSlab, sameArea, ← isIndex, ← clearing.apart other apart] at otherList
    have inside := (intact.1.settled.listed slot index.1 index.2 onList).2
    have seen : slot.offset ∈ (List.range (mdb.slabs slab).perSlab).reverse := by
      rw [isIndex] at inside
      exact List.mem_reverse.mpr (List.mem_range.mpr inside)
    subst onPage
    have same := clearing.alone slot.offset seen index other still otherList
    exact apart (congrArg Slot.page same)

end Clearing

/-! ### A page goes back to the pool -/

theorem MemPool.freePages_freePage {pool : MemPool} {page : Nat}
    (used : pool.pageBitmap page = true) : (pool.freePage page).freePages = pool.freePages + 1 ∧
      (pool.freePage page).pageBitmap page = false := by
  unfold MemPool.freePage
  rw [if_pos used]
  exact ⟨rfl, Function.update_self ..⟩

structure PageFreed (manager next : MdbManager) (slab : Nat) : Prop where
  pool : next.pool.freePages = manager.pool.freePages + 1
  page : ∃ page, manager.pool.pageBitmap page = true ∧ next.pool.pageBitmap page = false ∧
    (∀ offset, offset < (manager.slabs slab).perSlab →
      slabId (manager.items ⟨page, offset⟩).itemId = slab) ∧
    ∀ slot, next.Stored slot ↔ manager.Stored slot ∧ slot.page ≠ page
  items : ∀ slot, next.Stored slot → (next.items slot).body = (manager.items slot).body
  owned : 1 ≤ (next.slabs slab).pagesOwned

/-- The slab has an empty page; or it has three pages, and no area has all its items of the slab on
the page that is chosen. -/
def MdbManager.Releasable (manager : MdbManager) (slab : Nat) : Prop :=
  0 < (manager.slabs slab).freePagesNo ∨ 2 < (manager.slabs slab).pagesOwned ∧
    ∀ slot, manager.Stored slot → slot.page = manager.pageToFree slab →
      ∃ other, manager.Stored other ∧ other.page ≠ manager.pageToFree slab ∧
        slabId (manager.items other).itemId = slab ∧
        (manager.items other).area = (manager.items slot).area

namespace Intact

variable {mdb next : MdbManager} {layout : Layout} {slab : Nat}

theorem pageFreed_release (intact : Intact mdb layout)
    (pos : 0 < (mdb.slabs slab).freePagesNo) (more : 1 < (mdb.slabs slab).pagesOwned) :
    PageFreed mdb (mdb.releasePage slab (mdb.slabs slab).freePages) slab := by
  obtain ⟨page, isPage⟩ : ∃ page, (mdb.slabs slab).freePages = page := ⟨_, rfl⟩
  obtain ⟨after, items⟩ := Shed.intact_releasePage intact pos isPage
  have counted : 0 < (mdb.slabs slab).pagesNo .free := pos
  obtain ⟨owner, -, all, -⟩ := intact.1.freePage counted isPage
  obtain ⟨-, -, -, used, id⟩ := intact.1.settled.owned page slab owner
  have upkeep := upkeep_releasePage mdb slab page
  rw [id] at upkeep
  obtain ⟨count, unused⟩ := MemPool.freePages_freePage used
  rw [isPage]
  have empty : ∀ slot : Slot, slot.page = page → ¬ layout.Live slot := by
    intro slot onPage found
    have unfree := intact.1.freeNrs page slab owner
    rw [all] at unfree
    have every := TallyOn.forall_of_tallyOn_eq_card (unfree.symm.trans (Finset.card_range _).symm)
    obtain ⟨ofSlab, -, ofOwner, inside, -⟩ := intact.1.onList found
    rw [onPage, owner] at ofOwner
    cases ofOwner
    obtain ⟨bucket, hashed⟩ := found
    have free := every slot.offset (Finset.mem_range.mpr inside)
    rw [← onPage] at free
    have here : layout.chain slot = some (.free slot.page) := free
    rw [hashed] at here
    cases here
  refine ⟨?_, ⟨page, used, ?_, ?_, ?_⟩, ?_, ?_⟩
  · rw [upkeep.pool]
    exact count
  · rw [upkeep.pool]
    exact unused
  · intro offset inside
    exact (intact.1.settled.ids ⟨page, offset⟩ slab owner inside).slab
  · intro slot
    rw [after.1.stored_iff, intact.1.stored_iff]
    constructor
    · intro found
      exact ⟨found, fun onPage => empty slot onPage found⟩
    · intro found
      exact found.1
  · intro slot _
    rw [items]
  · rw [upkeep.owned, if_pos rfl]
    omega

theorem pageToFree_used (intact : Intact mdb layout) (noFree : ¬ 0 < (mdb.slabs slab).freePagesNo)
    (more : 1 < (mdb.slabs slab).pagesOwned) :
    layout.owner (mdb.pageToFree slab) = some slab ∧
      (mdb.pages (mdb.pageToFree slab)).freeNr ≠ (mdb.slabs slab).perSlab := by
  unfold pageToFree
  dsimp only
  rw [if_neg noFree]
  split
  next part =>
    obtain ⟨owner, -, fewer, -⟩ := intact.1.partialPage part (fun _ => List.mem_reverse) rfl
    exact ⟨owner, fewer⟩
  next noPart =>
    refine intact.1.fullPage ?_ rfl
    unfold SlabManager.pagesOwned at more
    change 0 < (mdb.slabs slab).fullPagesNo
    omega

theorem pageFreed_clear_iff (intact : Intact mdb layout)
    (noFree : ¬ 0 < (mdb.slabs slab).freePagesNo) (more : 1 < (mdb.slabs slab).pagesOwned)
    (clean : mdb.clearPage slab (mdb.pageToFree slab) = .ok next) :
    PageFreed mdb next slab ↔ mdb.Releasable slab := by
  obtain ⟨owner, used⟩ := intact.pageToFree_used noFree more
  obtain ⟨page, isPage⟩ : ∃ page, mdb.pageToFree slab = page := ⟨_, rfl⟩
  unfold MdbManager.Releasable
  rw [isPage] at clean owner used ⊢
  obtain ⟨after, clearing⟩ := Clearing.clearPage intact owner used clean
  have bare := clearing.empty_iff intact owner
  have intactAfter := clearing.intact
  constructor
  · intro freed
    have count := freed.pool
    cases clearing.fate with
    | standing _ _ _ pool _ =>
      rw [pool] at count
      omega
    | kept _ _ pool _ =>
      rw [pool] at count
      omega
    | returned empty many _ _ => exact Or.inr ⟨many, bare.mp empty⟩
  · intro releasable
    obtain ⟨many, shared⟩ := releasable.resolve_left noFree
    have empty := bare.mpr shared
    cases clearing.fate with
    | standing slot onPage listed _ _ => exact absurd (empty slot onPage) listed
    | kept _ few _ _ => omega
    | returned _ _ pool owned =>
      have inUse := (intact.1.settled.owned page slab owner).2.2.2.1
      obtain ⟨count, unused⟩ := MemPool.freePages_freePage inUse
      rw [← pool] at count unused
      refine ⟨count, ⟨page, inUse, unused, ?_, ?_⟩, ?_, ?_⟩
      · intro offset inside
        exact (intact.1.settled.ids ⟨page, offset⟩ slab owner inside).slab
      · intro slot
        rw [intactAfter.1.stored_iff, intact.1.stored_iff]
        constructor
        · intro found
          refine ⟨(clearing.shrinks slot found).1, fun onPage => ?_⟩
          exact (Clearing.list_iff_live intactAfter).mpr found (empty slot onPage)
        · intro found
          refine (Clearing.list_iff_live intactAfter).mp ?_
          rw [clearing.apart slot found.2]
          exact (Clearing.list_iff_live intact).mpr found.1
      · intro slot stored
        exact (clearing.shrinks slot (intactAfter.1.stored_iff.mp stored)).2
      · rw [owned]
        omega

end Intact

/-- What `free_page` says it did is done where the slab has an empty page, or three pages and no
area with all its items on the page that is cleared. -/
theorem page_freed_iff {param : MdbParam} {start state next : MdbManager} {slab : Nat}
    (begun : initialized param = .ok start)
    (reached : start.Serves state) (freed : state.freePage slab = .ok (next, true)) :
    PageFreed state next slab ↔ state.Releasable slab := by
  obtain ⟨layout, intact⟩ := intact_of_reached begun reached
  unfold MdbManager.freePage at freed
  dsimp only at freed
  by_cases few : (state.slabs slab).freePagesNo + (state.slabs slab).fullPagesNo +
      (state.slabs slab).partialPagesNo ≤ 1
  · rw [if_pos few] at freed
    cases freed
  · rw [if_neg few] at freed
    have more : 1 < (state.slabs slab).pagesOwned := not_le.mp few
    by_cases free : 0 < (state.slabs slab).freePagesNo
    · rw [if_pos free] at freed
      cases freed
      exact iff_of_true (intact.pageFreed_release free more) (Or.inl free)
    · rw [if_neg free] at freed
      have cleared : state.clearPage slab (state.pageToFree slab) = .ok next := by
        unfold pageToFree
        dsimp only
        rw [if_neg free]
        split at freed
        next part =>
          rw [if_pos part]
          obtain ⟨cleared, clear, same⟩ := ok_of_map freed
          cases same
          exact clear
        next noPart =>
          rw [if_neg noPart]
          split at freed
          · obtain ⟨cleared, clear, same⟩ := ok_of_map freed
            cases same
            exact clear
          · cases freed
      exact intact.pageFreed_clear_iff free more cleared

/-- Of two pages one is empty and goes. -/
theorem page_freed_iff_empty : ∃ start state next,
    initialized wideParam = .ok start ∧ start.Serves state ∧
    state.freePage 0 = .ok (next, true) ∧ PageFreed state next 0 := by
  obtain ⟨start, state, begun, reached, free, ⟨next, more⟩, done, rfl⟩ := exists_served wideParam
    [putOf [1, 0, 65] [7], putOf [2, 0, 65] [7],
      .remove (entryOf [1, 0, 65])]
    (fun state => 0 < (state.slabs 0).freePagesNo ∧
      ∃ result, state.freePage 0 = .ok result ∧ result.2 = true) (by decide +kernel)
  exact ⟨start, state, next, begun, reached, done,
    (page_freed_iff begun reached done).mpr (Or.inl free)⟩

/-- Three pages with an item of another area each: one of them is cleared, and nothing has
happened. -/
theorem page_stays : ∃ start state next,
    initialized wideParam = .ok start ∧ start.Serves state ∧
    state.freePage 0 = .ok (next, true) ∧ next.pool.freePages = state.pool.freePages ∧
    ¬ PageFreed state next 0 := by
  obtain ⟨start, state, begun, reached, ⟨next, more⟩, done, rfl, same⟩ := exists_served wideParam
    [putOf [1, 0, 65] [7], putOf [2, 0, 65] [7], putOf [3, 0, 65] [7]]
    (fun state => ∃ result, state.freePage 0 = .ok result ∧ result.2 = true ∧
      result.1.pool.freePages = state.pool.freePages) (by decide +kernel)
  refine ⟨start, state, next, begun, reached, done, same, fun page => ?_⟩
  have grown := page.pool
  dsimp only at same
  omega

end Tair.Mdb
