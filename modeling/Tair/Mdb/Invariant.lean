/-
What holds in every state of the memory engine. Free slots are in the chain of their page, all
others in the list of their area and in the hash chain of their key; pages are listed by the
number of their free slots, and the counters count what is there.
-/

import Tair.Mdb.Start

namespace Tair.Mdb

open MdbManager Tair.Common Tair.Library

structure Lists where
  owner : Nat → Option Nat
  chain : ChainId → List Slot
  items : Nat × Nat → List Slot
  pages : Nat × PageList → List Nat

structure WellFormed (manager : MdbManager) (lists : Lists) : Prop where
  chains : ∀ index, Chain manager.chainNext (manager.chainFirst index) (lists.chain index)
  items : ∀ index, Linked manager.itemPrev manager.itemNext (manager.listHead index)
    (manager.listTail index) (lists.items index)
  pages : ∀ index, ∃ last, Linked manager.pagePrev manager.pageNext (manager.pageFirst index) last
    (lists.pages index)
  /-- A slot of a slab is free, or in the list of its area and in the chain of its key. -/
  slots : ∀ slot slab, lists.owner slot.page = some slab →
    slot.offset < (manager.slabs slab).perSlab →
    (OnceOn lists.chain slot (.free slot.page) ∧ ∀ index, slot ∉ lists.items index) ∨
      (OnceOn lists.chain slot (.hash (manager.getBucketIndex (manager.items slot).key)) ∧
        OnceOn lists.items slot (slab, (manager.items slot).area))
  /-- No other slots are in the lists. -/
  free : ∀ page slab slot, lists.owner page = some slab → slot ∈ lists.chain (.free page) →
    slot.page = page ∧ slot.offset < (manager.slabs slab).perSlab
  found : ∀ bucket slot, slot ∈ lists.chain (.hash bucket) → ∃ slab,
    lists.owner slot.page = some slab ∧ slot.offset < (manager.slabs slab).perSlab
  listed : ∀ slab area slot, slot ∈ lists.items (slab, area) →
    lists.owner slot.page = some slab ∧ slot.offset < (manager.slabs slab).perSlab
  keys : ∀ bucket slot other, slot ∈ lists.chain (.hash bucket) →
    ∀ elsewhere, other ∈ lists.chain (.hash elsewhere) →
      (manager.items slot).key = (manager.items other).key → slot = other
  freeNr : ∀ page slab, lists.owner page = some slab →
    (manager.pages page).freeNr = (lists.chain (.free page)).length
  homes : ∀ page slab, lists.owner page = some slab →
    OnceOn lists.pages page
      (slab, homeList (manager.slabs slab).perSlab (manager.pages page).freeNr)
  owned : ∀ slab list page, page ∈ lists.pages (slab, list) → lists.owner page = some slab
  fullPagesNo : ∀ slab, (manager.slabs slab).fullPagesNo = (lists.pages (slab, .full)).length
  freePagesNo : ∀ slab, (manager.slabs slab).freePagesNo = (lists.pages (slab, .free)).length
  partialPagesNo : ∀ slab, (manager.slabs slab).partialPagesNo =
    ((∑ bucket ∈ Finset.range (manager.slabs slab).partialPagesBucketNo,
      (lists.pages (slab, .part bucket)).length : Nat) : Int)
  itemCount : ∃ live : Finset Slot, (∀ slot, slot ∈ live ↔
    ∃ bucket, slot ∈ lists.chain (.hash bucket)) ∧ manager.itemCount = live.card

namespace Sound

variable {mdb : MdbManager} {layout : Layout} {slab page : Nat}

theorem pagePlace_eq_some {list : PageList} :
    layout.pagePlace mdb none page = some (slab, list) ↔ layout.owner page = some slab ∧
      list = homeList (mdb.slabs slab).perSlab (mdb.pages page).freeNr := by
  unfold Layout.pagePlace
  rw [if_neg (by simp), Option.map_eq_some_iff]
  constructor
  · intro placed
    obtain ⟨other, owner, same⟩ := placed
    cases same
    exact ⟨owner, rfl⟩
  · intro both
    obtain ⟨owner, rfl⟩ := both
    exact ⟨slab, owner, rfl⟩

theorem pageKind_eq_some {which : PageKind} :
    layout.pageKind mdb none page = some (slab, which) ↔
      ∃ list, layout.pagePlace mdb none page = some (slab, list) ∧ list.kind = which := by
  unfold Layout.pageKind
  rw [Option.map_eq_some_iff]
  constructor
  · intro counted
    obtain ⟨other, owner, same⟩ := counted
    cases same
    exact ⟨_, pagePlace_eq_some.mpr ⟨owner, rfl⟩, rfl⟩
  · intro placed
    obtain ⟨list, placed, rfl⟩ := placed
    obtain ⟨owner, rfl⟩ := pagePlace_eq_some.mp placed
    exact ⟨slab, owner, rfl⟩

section

variable (sound : Sound mdb layout none none)

include sound

theorem freeNr_eq {lists : ChainId → List Slot} (listed : Listed lists layout.chain)
    (owner : layout.owner page = some slab) :
    (mdb.pages page).freeNr = (lists (.free page)).length := by
  obtain ⟨inside, isInside⟩ : ∃ inside, (Finset.range (mdb.slabs slab).perSlab).filter
      (fun offset => layout.chain ⟨page, offset⟩ = some (.free page)) = inside := ⟨_, rfl⟩
  have injective : Function.Injective (Slot.mk page) := by
    intro first second same
    cases same
    rfl
  rw [sound.freeNrs page slab owner]
  unfold tallyOn
  rw [isInside, ← Finset.card_image_of_injective inside injective]
  refine (listed.length_eq ?_).symm
  intro slot
  rw [Finset.mem_image]
  constructor
  · intro member
    obtain ⟨offset, counted, rfl⟩ := member
    rw [← isInside] at counted
    exact (Finset.mem_filter.mp counted).2
  · intro chained
    obtain ⟨rfl, -, within⟩ := sound.settled.freed slot page chained
    refine ⟨slot.offset, ?_, rfl⟩
    rw [← isInside]
    exact Finset.mem_filter.mpr ⟨Finset.mem_range.mpr (within slab owner), chained⟩

theorem pagesNo_eq {lists : Nat × PageList → List Nat} {which : PageKind}
    {indices : Finset (Nat × PageList)} (listed : Listed lists (layout.pagePlace mdb none))
    (places : ∀ page, layout.pageKind mdb none page = some (slab, which) ↔
      ∃ index ∈ indices, layout.pagePlace mdb none page = some index) :
    (mdb.slabs slab).pagesNo which = ((∑ index ∈ indices, (lists index).length : Nat) : Int) := by
  rw [sound.counts slab which]
  unfold tallyOn
  refine congrArg Nat.cast (listed.sum_length ?_).symm
  intro page
  rw [Finset.mem_filter, places]
  constructor
  · exact fun member => member.2
  · intro placed
    refine ⟨?_, placed⟩
    obtain ⟨index, -, here⟩ := placed
    obtain ⟨owner, -⟩ := pagePlace_eq_some.mp here
    exact Finset.mem_range.mpr (sound.settled.owned page _ owner).2.2.1

theorem pagesNo_eq_length {lists : Nat × PageList → List Nat}
    (listed : Listed lists (layout.pagePlace mdb none)) (list : PageList)
    (only : ∀ other : PageList, other.kind = list.kind → other = list) :
    (mdb.slabs slab).pagesNo list.kind = (lists (slab, list)).length := by
  have total : (mdb.slabs slab).pagesNo list.kind =
      ((∑ index ∈ {(slab, list)}, (lists index).length : Nat) : Int) := by
    apply sound.pagesNo_eq listed
    intro page
    rw [pageKind_eq_some]
    constructor
    · intro placed
      obtain ⟨other, here, same⟩ := placed
      rw [only other same] at here
      exact ⟨_, Finset.mem_singleton_self _, here⟩
    · intro placed
      obtain ⟨index, member, here⟩ := placed
      rw [Finset.mem_singleton.mp member] at here
      exact ⟨list, here, rfl⟩
  rw [Finset.sum_singleton] at total
  exact total

theorem partialPagesNo_eq {lists : Nat × PageList → List Nat}
    (listed : Listed lists (layout.pagePlace mdb none)) :
    (mdb.slabs slab).partialPagesNo =
      ((∑ bucket ∈ Finset.range (mdb.slabs slab).partialPagesBucketNo,
        (lists (slab, .part bucket)).length : Nat) : Int) := by
  have injective : Function.Injective (fun bucket => (slab, PageList.part bucket)) := by
    intro first second same
    cases same
    rfl
  have total : (mdb.slabs slab).pagesNo .part = ((∑ index ∈
      (Finset.range (mdb.slabs slab).partialPagesBucketNo).image
        (fun bucket => (slab, PageList.part bucket)), (lists index).length : Nat) : Int) := by
    apply sound.pagesNo_eq listed
    intro page
    rw [pageKind_eq_some]
    constructor
    · intro placed
      obtain ⟨list, here, kind⟩ := placed
      obtain ⟨owner, home⟩ := pagePlace_eq_some.mp here
      cases list with
      | full => cases kind
      | free => cases kind
      | part bucket =>
        refine ⟨_, Finset.mem_image.mpr ⟨bucket, Finset.mem_range.mpr ?_, rfl⟩, here⟩
        obtain ⟨pos, ne, isBucket⟩ := homeList_eq_part home.symm
        have bound := sound.freeNr_le owner
        unfold SlabManager.partialPagesBucketNo
        unfold partialPageBucket at isBucket ⊢
        omega
    · intro placed
      obtain ⟨index, member, here⟩ := placed
      obtain ⟨bucket, -, rfl⟩ := Finset.mem_image.mp member
      exact ⟨_, here, rfl⟩
  rw [Finset.sum_image (fun first _ second _ same => injective same)] at total
  exact total

theorem wellFormed : ∃ lists, WellFormed mdb lists := by
  have settled := sound.settled
  obtain ⟨chain, chained, chains⟩ := Chained.listed sound.chains
  obtain ⟨items, itemsListed, itemLinks⟩ := sound.items.threaded.listed
  obtain ⟨last, threaded⟩ := sound.pages
  obtain ⟨pages, pagesListed, pageLinks⟩ := threaded.listed
  have found : ∀ bucket slot, slot ∈ chain (.hash bucket) → layout.Live slot :=
    fun bucket slot member => ⟨bucket, ((chained _).2 slot).mp member⟩
  refine ⟨⟨layout.owner, chain, items, pages⟩, chains, itemLinks,
    fun index => ⟨last index, pageLinks index⟩, ?_, ?_, ?_, ?_, ?_, ?_, ?_, ?_, ?_, ?_, ?_, ?_⟩
  · intro slot slab owner inside
    cases onList : layout.list slot with
    | none =>
      have free := settled.kept slot slab owner inside onList (by simp)
      exact Or.inl ⟨chained.onceOn free, fun index => itemsListed.not_mem onList⟩
    | some index =>
      obtain ⟨other, area⟩ := index
      obtain ⟨isArea, bucket, hashed⟩ := settled.live slot other area onList (by simp)
      obtain rfl : other = slab :=
        Option.some.inj ((settled.listed slot other area onList).1.symm.trans owner)
      obtain ⟨-, isBucket⟩ := settled.hashed slot bucket hashed
      rw [isBucket] at hashed
      rw [isArea] at onList
      exact Or.inr ⟨chained.onceOn hashed, itemsListed.onceOn onList⟩
  · intro page slab slot owner member
    obtain ⟨own, -, within⟩ := settled.freed slot page (((chained _).2 slot).mp member)
    exact ⟨own, within slab owner⟩
  · intro bucket slot member
    obtain ⟨slab, onList, -⟩ := sound.onList (found bucket slot member)
    exact ⟨slab, settled.listed slot slab _ onList⟩
  · intro slab area slot member
    exact settled.listed slot slab area (((itemsListed _).2 slot).mp member)
  · intro bucket slot other member apart otherMember
    exact settled.distinct slot other (found bucket slot member) (found apart other otherMember)
  · intro page slab owner
    exact sound.freeNr_eq chained owner
  · intro page slab owner
    exact pagesListed.onceOn (pagePlace_eq_some.mpr ⟨owner, rfl⟩)
  · intro slab list page member
    exact (pagePlace_eq_some.mp (((pagesListed _).2 page).mp member)).1
  · intro slab
    apply sound.pagesNo_eq_length pagesListed .full
    intro list same
    cases list with
    | full => rfl
    | free => cases same
    | part bucket => cases same
  · intro slab
    apply sound.pagesNo_eq_length pagesListed .free
    intro list same
    cases list with
    | full => cases same
    | free => rfl
    | part bucket => cases same
  · intro slab
    exact sound.partialPagesNo_eq pagesListed
  · obtain ⟨live, members, count⟩ := sound.counted
    refine ⟨live, ?_, count⟩
    intro slot
    rw [members]
    constructor
    · intro lives
      obtain ⟨bucket, hashed⟩ := lives
      exact ⟨bucket, ((chained _).2 slot).mpr hashed⟩
    · intro member
      obtain ⟨bucket, member⟩ := member
      exact found bucket slot member

end

end Sound

/-- Only puts store items. -/
def Operation.stores : Operation → Bool
  | .put .. => true
  | _ => false

theorem Loses.step {mdb next : MdbManager} {op : Operation}
    (reads : op.stores = false) (ran : mdb.step op = .ok next) : Loses mdb next := by
  cases ran_of_step ran with
  | put put => cases reads
  | sweeps sweeps => exact sweeps.loses
  | touch found =>
    intro layout intact
    obtain ⟨sound, unset, framed⟩ := intact.1.touch intact.2 (found layout intact)
    exact ⟨layout, ⟨sound, unset⟩, Shrinks.of_framed framed (fun _ found => found)⟩
  | quota area quota => exact Loses.alike (Alike.areaStat _ _)

theorem Intact.step {mdb next : MdbManager} {layout : Layout} {op : Operation}
    (intact : Intact mdb layout) (served : op.Served mdb)
    (ran : mdb.step op = .ok next) : ∃ relaid, Intact next relaid := by
  cases reads : op.stores with
  | false =>
    obtain ⟨relaid, after, -⟩ := Loses.step reads ran layout intact
    exact ⟨relaid, after⟩
  | true =>
    cases op with
    | put key data versionCare expired now evictNow =>
      obtain ⟨⟨stored, code, entry⟩, put, same⟩ := ok_of_map ran
      rw [same]
      obtain ⟨found, -, -, out⟩ := intact.1.doPut intact.2 served put
      cases out with
      | inl turned =>
        obtain ⟨-, rfl, -⟩ := turned
        exact ⟨layout, intact⟩
      | inr stored =>
        obtain ⟨-, -, -, -, -, -, relaid, slot, old, -, stores⟩ := stored
        exact ⟨relaid, stores.sound, stores.unset⟩
    | _ => cases reads

theorem intact_of_reached {param : MdbParam} {start state : MdbManager}
    (begun : initialized param = .ok start)
    (reached : start.Serves state) : ∃ layout, Intact state layout := by
  apply reached.invariant (fun state => ∃ layout, Intact state layout)
  · obtain ⟨layout, intact, -⟩ := intact_initialized begun
    exact ⟨layout, intact⟩
  · intro state next op intact served ran
    obtain ⟨layout, intact⟩ := intact
    exact intact.step served ran

/-- Only puts store anything: what is there after a run of other operations was there before, in
the same slot and with the same contents. -/
theorem stored_before_of_no_put {param : MdbParam} {start state later : MdbManager}
    (begun : initialized param = .ok start) (reached : start.Serves state)
    (run : Reached MdbManager.step (fun _ op => op.stores = false) state later) {slot : Slot}
    (stored : later.Stored slot) :
    state.Stored slot ∧ (later.items slot).body = (state.items slot).body := by
  obtain ⟨layout, intact⟩ := intact_of_reached begun reached
  have loses : Loses state later := run.invariant (Loses state) (.refl state)
    (fun earlier reads ran => earlier.trans (.step reads ran))
  obtain ⟨relaid, after, shrinks⟩ := loses layout intact
  obtain ⟨live, same⟩ := shrinks slot (after.1.stored_iff.mp stored)
  exact ⟨intact.stored live, same⟩

theorem stored_before_get : ∃ (state later : MdbManager) (slot : Slot),
    later.Stored slot ∧ state.Stored slot ∧ (later.items slot).body = (state.items slot).body := by
  obtain ⟨start, state, begun, reached, later, run, -, search, slot, rfl, isKey⟩ := exists_served
    smallParam [putOf [1, 0, 65] [7]]
    (fun state => ∃ later, guardedRun MdbManager.step (fun _ op => op.stores = false)
        [.get { entryOf [1, 0, 65] with area := 1 } (entryOf []) 1001] state = some later ∧
      ∃ found, later.find [1, 0, 65] = .ok found ∧ ∃ slot, found = some slot ∧
        (later.items slot).key = [1, 0, 65]) (by decide +kernel)
  have stored : later.Stored slot := (congrArg later.find isKey).trans search
  exact ⟨state, later, slot, stored,
    stored_before_of_no_put begun reached (.of_guardedRun _ .start run) stored⟩

/-- A removal takes exactly the item with its key, and says whether there was one. -/
theorem doRemove_exact {param : MdbParam} {start state : MdbManager}
    (begun : initialized param = .ok start)
    (reached : start.Serves state) (key : DataEntry) :
    ∃ next code, state.doRemove key = .ok (next, code) ∧
      (code = .success ↔ ∃ slot, state.Stored slot ∧ (state.items slot).key = key.data) ∧
      ∀ slot, (next.Stored slot ↔ state.Stored slot ∧ (state.items slot).key ≠ key.data) ∧
        (next.Stored slot → (next.items slot).body = (state.items slot).body) := by
  obtain ⟨layout, intact⟩ := intact_of_reached begun reached
  obtain ⟨found, search⟩ := intact.1.find_ends key.data
  have only : ∀ slot, state.Stored slot → (state.items slot).key = key.data →
      found = some slot := by
    intro slot stored same
    unfold MdbManager.Stored at stored
    rw [same, search] at stored
    exact Except.ok.inj stored
  unfold doRemove
  rw [search]
  cases intact.1.find search with
  | absent =>
    refine ⟨state, .dataNotExist, rfl, ⟨nofun, ?_⟩, fun slot => ⟨⟨fun stored => ⟨stored, ?_⟩,
      And.left⟩, fun _ => rfl⟩⟩
    · rintro ⟨slot, stored, same⟩
      cases only slot stored same
    · intro same
      cases only slot stored same
  | present slot live isKey =>
    obtain ⟨next, gone⟩ := intact.1.removeItem_ends slot
    obtain ⟨relaid, after, removes⟩ := intact.removeItem live gone
    refine ⟨next, .success, ?_, iff_of_true rfl ⟨slot, intact.stored live, isKey⟩,
      fun other => ?_⟩
    · change _ <$> state.removeItem slot = _
      rw [gone]
      rfl
    · rw [after.1.stored_iff, intact.1.stored_iff]
      refine ⟨⟨fun found => ⟨(removes.shrinks other found).1, fun same => ?_⟩, fun both => ?_⟩,
        fun found => (removes.shrinks other found).2⟩
      · cases only other (intact.stored (removes.shrinks other found).1) same
        exact removes.gone found
      · exact removes.kept other both.1 fun here => both.2 (here ▸ isKey)

theorem doRemove_exact_stored : ∃ (state next : MdbManager) (code : ReturnCode),
    state.itemCount = 1 ∧
    state.doRemove (entryOf [1, 0, 65]) = .ok (next, code) ∧
    ∀ slot, next.Stored slot → (state.items slot).key ≠ [1, 0, 65] := by
  obtain ⟨start, state, begun, reached, counted⟩ := exists_served smallParam
    [putOf [1, 0, 65] [7]] (fun state => state.itemCount = 1) (by decide +kernel)
  obtain ⟨next, code, ran, -, exact⟩ := doRemove_exact begun reached (entryOf [1, 0, 65])
  exact ⟨state, next, code, counted, ran,
    fun slot stored => ((exact slot).1.mp stored).2⟩

/-- In every state that operations lead to, memory is in order. -/
theorem wellFormed_of_reached {param : MdbParam} {start state : MdbManager}
    (begun : initialized param = .ok start)
    (reached : start.Serves state) : ∃ lists, WellFormed state lists := by
  obtain ⟨layout, sound, -⟩ := intact_of_reached begun reached
  exact sound.wellFormed

/-- Two items are stored, one is removed, and after a quota is set a third one goes. -/
theorem wellFormed_busyRun : ∃ start state, initialized smallParam = .ok start ∧
    start.Serves state ∧
    state.itemCount = 1 ∧ ∃ lists, WellFormed state lists := by
  obtain ⟨start, state, begun, reached, counted⟩ := exists_served smallParam
    [.put (entryOf [1, 0, 65]) (entryOf [7]) true 100 1000 1000, putOf [1, 0, 66] [8],
      .get (entryOf [1, 0, 65]) (entryOf []) 1001,
      .remove (entryOf [1, 0, 66]),
      .setAreaQuota 1 5,
      .put (entryOf [1, 0, 67]) (entryOf [9]) true 0 1002 1002,
      .checkQuota,
      .removeExprdItem (fun _ => 1003),
      .balanceSlab (fun _ => 0)]
    (fun state => state.itemCount = 1) (by decide +kernel)
  exact ⟨start, state, begun, reached, counted, wellFormed_of_reached begun reached⟩

end Tair.Mdb
