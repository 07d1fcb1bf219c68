/-
The engine starts with intact memory. Nothing is in use at first; pages for the hash
table belong to no slab, and every slab begins with one empty page at most.
-/

import Tair.Mdb.Sweeps

namespace Tair.Mdb

open MdbManager Function Tair.Common Tair.Library

namespace MdbManager

/-! ### Empty memory -/

def noLayout : Layout where
  owner := fun _ => none
  list := fun _ => none
  chain := fun _ => none

def Unused (manager : MdbManager) : Prop :=
  ∀ slab, manager.slabsCount ≤ slab → manager.slabs slab = emptySlab 0 0

theorem pageHead_emptySlab (size perSlab : Nat) (list : PageList) :
    (emptySlab size perSlab).pageHead list = 0 := by
  cases list with
  | full => rfl
  | free => rfl
  | part bucket => rfl

theorem pagesNo_emptySlab (size perSlab : Nat) (which : PageKind) :
    (emptySlab size perSlab).pagesNo which = 0 := by
  cases which with
  | full => rfl
  | free => rfl
  | part => rfl

theorem intact_empty (param : MdbParam) : Intact (empty param) noLayout := by
  have notLive : ∀ slot, ¬ noLayout.Live slot := by
    intro slot found
    obtain ⟨bucket, chained⟩ := found
    cases chained
  refine ⟨⟨⟨param.totalPages_le, ?_, ?_⟩, ⟨?_, ?_, ?_, ?_, ?_, ?_, ?_, ?_, ?_⟩, ⟨?_, ?_, ?_, ?_, ?_⟩,
    ?_, ?_, ?_, ?_, ?_, ?_⟩, ?_⟩
  · exact Nat.zero_le _
  · intro slab inside
    exact absurd inside (Nat.not_lt_zero slab)
  · intro page slab owner
    cases owner
  · intro slot slab owner
    cases owner
  · intro slot slab area onList
    cases onList
  · intro slot slab area onList
    cases onList
  · intro slot found
    exact absurd found (notLive slot)
  · intro slot bucket chained
    cases chained
  · intro slot other found
    exact absurd found (notLive slot)
  · intro slot page chained
    cases chained
  · intro slot slab owner
    cases owner
  · intro index
    refine ⟨[], Linked.empty, ?_⟩
    intro slot
    exact iff_of_false List.not_mem_nil (by simp [noLayout])
  · intro slab area real
    exact absurd rfl real
  · intro slab area real
    exact absurd rfl real
  · intro slot slab area onList
    cases onList
  · intro slot slab area onList
    cases onList
  · intro index
    refine ⟨[], ?_, List.nodup_nil, ?_⟩
    · cases index with
      | hash bucket => rfl
      | free page => rfl
    · intro slot
      exact iff_of_false List.not_mem_nil (by simp [noLayout])
  · refine ⟨fun _ => none, ?_⟩
    intro index
    refine ⟨[], ?_, ?_⟩
    · have head : (empty param).pageFirst index = none := by
        unfold pageFirst empty
        dsimp only
        rw [pageHead_emptySlab, pageLink_zero]
      rw [head]
      exact Linked.empty
    · intro page
      refine iff_of_false List.not_mem_nil ?_
      unfold Layout.pagePlace
      simp [noLayout]
  · intro slab which
    unfold empty
    dsimp only
    rw [pagesNo_emptySlab]
    symm
    rw [Nat.cast_eq_zero, tallyOn, Finset.card_eq_zero, Finset.filter_eq_empty_iff]
    intro page _
    unfold Layout.pageKind
    simp [noLayout]
  · intro page slab owner
    cases owner
  · intro slot _ _
    exact ⟨rfl, rfl⟩
  · refine ⟨∅, ?_, rfl⟩
    intro slot
    exact iff_of_false (Finset.notMem_empty slot) (notLive slot)
  · intro slot _
    refine ⟨rfl, ?_⟩
    change itemFlags 0 = 0
    decide

end MdbManager

/-! ### Pages and slabs -/

namespace Intact

variable {mdb next : MdbManager} {layout : Layout}

theorem taken (intact : Intact mdb layout) (index : Nat) :
    Intact { mdb with pool := mdb.pool.taken index } layout := by
  obtain ⟨sound, unset⟩ := intact
  have settled := sound.settled
  refine ⟨⟨{ sound.fits with },
    ⟨?_, settled.ids, settled.listed, settled.live, settled.onList, settled.hashed,
      settled.distinct, settled.freed, settled.kept⟩,
    { sound.items with }, sound.chains, sound.pages, sound.counts, sound.freeNrs, sound.blank,
    sound.counted⟩, unset⟩
  intro page slab owner
  obtain ⟨count, above, below, used, id⟩ := settled.owned page slab owner
  refine ⟨count, above, below, ?_, id⟩
  change update mdb.pool.pageBitmap index true page = true
  by_cases same : page = index
  · rw [same, update_self]
  · rw [update_of_ne same]
    exact used

theorem takeTablePage (intact : Intact mdb layout) (result : mdb.takeTablePage = .ok next) :
    Intact next layout ∧ next.slabsCount = mdb.slabsCount ∧ next.slabs = mdb.slabs := by
  unfold MdbManager.takeTablePage at result
  split at result
  · cases result
  · cases result
  next index paged =>
    cases result
    obtain ⟨rfl, -⟩ := MemPool.allocPage_some paged
    exact ⟨intact.taken index, rfl, rfl⟩

theorem newSlab {perSlab : Nat} (intact : Intact mdb layout) (size : Nat) (unused : Unused mdb)
    (count : mdb.slabsCount < 2 ^ 8) (pos : 0 < perSlab) (bound : perSlab ≤ 2 ^ 16) :
    Intact { mdb with
      slabs := update mdb.slabs mdb.slabsCount (emptySlab size perSlab)
      slabsCount := mdb.slabsCount + 1 } layout := by
  obtain ⟨sound, unset⟩ := intact
  have settled := sound.settled
  have before : mdb.slabs mdb.slabsCount = emptySlab 0 0 := unused _ le_rfl
  generalize isNew : update mdb.slabs mdb.slabsCount (emptySlab size perSlab) = slabs
  have added : slabs mdb.slabsCount = emptySlab size perSlab := isNew ▸ update_self ..
  have others : ∀ slab, slab ≠ mdb.slabsCount → slabs slab = mdb.slabs slab :=
    fun slab ne => isNew ▸ update_of_ne ne _ _
  have ofOwner : ∀ page slab, layout.owner page = some slab → slabs slab = mdb.slabs slab := by
    intro page slab owner
    apply others
    have inside := (settled.owned page slab owner).1
    omega
  have lists : ∀ slab, (slabs slab).itemList = (mdb.slabs slab).itemList := by
    intro slab
    by_cases same : slab = mdb.slabsCount
    · rw [same, added, before]
      rfl
    · rw [others slab same]
  have heads : ∀ slab, (slabs slab).pageHead = (mdb.slabs slab).pageHead := by
    intro slab
    by_cases same : slab = mdb.slabsCount
    · rw [same, added, before]
      funext list
      rw [pageHead_emptySlab, pageHead_emptySlab]
    · rw [others slab same]
  have numbers : ∀ slab, (slabs slab).pagesNo = (mdb.slabs slab).pagesNo := by
    intro slab
    by_cases same : slab = mdb.slabsCount
    · rw [same, added, before]
      funext which
      rw [pagesNo_emptySlab, pagesNo_emptySlab]
    · rw [others slab same]
  obtain ⟨place, kind⟩ :
      layout.pagePlace { mdb with slabs, slabsCount := mdb.slabsCount + 1 } none = _ ∧ _ :=
    Layout.places_congr rfl (fun page slab owner _ =>
      ⟨congrArg SlabManager.perSlab (ofOwner page slab owner), rfl⟩)
  refine ⟨⟨⟨sound.fits.totalPages, count, ?_⟩,
    ⟨?_, ?_, ?_, settled.live, settled.onList, settled.hashed, settled.distinct, ?_, ?_⟩,
    ?_, sound.chains, ?_, ?_, ?_, sound.blank, sound.counted⟩, unset⟩
  · intro slab inside
    dsimp only at inside ⊢
    by_cases same : slab = mdb.slabsCount
    · rw [same, added]
      exact ⟨pos, bound⟩
    · rw [others slab same]
      exact sound.fits.perSlab slab (by omega)
  · intro page slab owner
    obtain ⟨inside, rest⟩ := settled.owned page slab owner
    exact ⟨Nat.lt_succ_of_lt inside, rest⟩
  · intro slot slab owner inside
    dsimp only at inside ⊢
    rw [ofOwner _ slab owner] at inside ⊢
    exact settled.ids slot slab owner inside
  · intro slot slab area onList
    obtain ⟨owner, inside⟩ := settled.listed slot slab area onList
    refine ⟨owner, ?_⟩
    dsimp only
    rw [ofOwner _ slab owner]
    exact inside
  · intro slot page chained
    obtain ⟨own, off, within⟩ := settled.freed slot page chained
    refine ⟨own, off, ?_⟩
    intro slab owner
    dsimp only
    rw [ofOwner _ slab owner]
    exact within slab owner
  · intro slot slab owner inside off unheld
    dsimp only at inside
    rw [ofOwner _ slab owner] at inside
    exact settled.kept slot slab owner inside off unheld
  · -- the lists of the new slab are empty, and what is on a list belongs to an older slab
    have sizes : ∀ slot slab area, layout.list slot = some (slab, area) →
        (slabs slab).slabSize = (mdb.slabs slab).slabSize := by
      intro slot slab area onList
      rw [ofOwner _ slab (settled.listed slot slab area onList).1]
    refine ⟨?_, ?_, ?_, ?_, ?_⟩
    · apply sound.items.threaded.congr (fun _ _ _ => rfl) (fun _ _ _ => rfl) _ _ (fun _ => rfl)
      · intro index
        unfold listHead
        dsimp only
        rw [lists]
      · intro index
        unfold listTail
        dsimp only
        rw [lists]
    · intro slab area real
      dsimp only at real ⊢
      rw [lists] at real ⊢
      by_cases same : slab = mdb.slabsCount
      · rw [same, before] at real
        exact absurd rfl real
      · rw [others slab same]
        exact sound.items.heads slab area real
    · intro slab area real
      dsimp only at real ⊢
      rw [lists] at real ⊢
      by_cases same : slab = mdb.slabsCount
      · rw [same, before] at real
        exact absurd rfl real
      · rw [others slab same]
        exact sound.items.tails slab area real
    · intro slot slab area onList
      dsimp only
      rw [sizes slot slab area onList]
      exact sound.items.nexts slot slab area onList
    · intro slot slab area onList
      dsimp only
      rw [sizes slot slab area onList]
      exact sound.items.prevs slot slab area onList
  · rw [place]
    exact sound.pages.congr (fun _ _ => ⟨rfl, rfl⟩) heads
  · rw [kind]
    exact sound.counts.congr rfl numbers
  · intro page slab owner
    dsimp only
    rw [ofOwner page slab owner]
    exact sound.freeNrs page slab owner

end Intact

namespace MdbManager

theorem initPage_modifySlab (mdb : MdbManager) (slab index : Nat)
    {change : SlabManager → SlabManager} (slabSize : ∀ s, (change s).slabSize = s.slabSize)
    (perSlab : ∀ s, (change s).perSlab = s.perSlab) :
    (mdb.modifySlab slab change).initPage slab index =
      (mdb.initPage slab index).modifySlab slab change := by
  have own : (mdb.modifySlab slab change).slabs slab = change (mdb.slabs slab) := by
    rw [slabs_modifySlab, if_pos rfl]
  unfold initPage
  dsimp only
  rw [own, slabSize, perSlab]
  rfl

theorem firstPage_eq (mdb : MdbManager) (slab index : Nat) :
    ((modifySlab { mdb with pool := mdb.pool.taken index } slab (fun s =>
      { s with freePagesNo := s.freePagesNo + 1 })).initPage slab index).linkPage slab index .free =
    (((mdb.newPage slab index).modifySlab slab (fun s =>
      { s with partialPagesNo := s.partialPagesNo + 1 })).linkPage slab index .free).modifySlab slab
        (fun s => { s with
          partialPagesNo := s.partialPagesNo - 1
          freePagesNo := s.freePagesNo + 1 }) := by
  rw [initPage_modifySlab]
  · rw [linkPage_modifySlab _ _ _ _ (fun _ => funext fun list => by cases list <;> rfl)
      (fun _ _ => rfl), linkPage_modifySlab _ _ _ _
      (fun _ => funext fun list => by cases list <;> rfl) (fun _ _ => rfl), modifySlab_modifySlab]
    unfold newPage
    congr 1
    funext s
    dsimp only
    rw [add_sub_cancel_right]
  · exact fun _ => rfl
  · exact fun _ => rfl

theorem slabs_linkPage_of_ne (mdb : MdbManager) {slab other : Nat} (page : Nat)
    (list : PageList) (ne : other ≠ slab) :
    (mdb.linkPage slab page list).slabs other = mdb.slabs other := by
  rw [linkPage_eq]
  have apart : ∀ l, (slab, list) ≠ (other, l) :=
    fun l same => ne (congrArg Prod.fst same).symm
  simp only [if_neg (apart _)]
  rfl

end MdbManager

namespace Intact

variable {mdb next : MdbManager} {layout : Layout}

theorem preAlloc {slab : Nat} (intact : Intact mdb layout)
    (slabBound : slab < mdb.slabsCount) (result : mdb.preAlloc slab = .ok next) :
    ∃ relaid, Intact next relaid ∧ (∀ slot, relaid.Live slot → layout.Live slot) ∧
      next.slabsCount = mdb.slabsCount ∧
      ∀ other, other ≠ slab → next.slabs other = mdb.slabs other := by
  unfold MdbManager.preAlloc at result
  split at result
  · cases result
  next paged =>
    cases result
    obtain ⟨rfl, -⟩ := MemPool.allocPage_none paged
    exact ⟨layout, intact, fun _ found => found, rfl, fun _ _ => rfl⟩
  next index paged =>
    cases result
    obtain ⟨rfl, untaken, pos, below⟩ := MemPool.allocPage_some paged
    obtain ⟨sound, unset⟩ := intact
    have adopted := sound.adopt slabBound untaken pos below Recounts.toPart
    have owner : (layout.adopt index slab (mdb.slabs slab).perSlab).owner index =
        some slab := Layout.reown_self _
    have fresh : homeList (mdb.slabs slab).perSlab
        ((mdb.newPage slab index).pages index).freeNr = .free := by
      rw [newPage_pages_self]
      exact homeList_free (sound.fits.perSlab slab slabBound).1 rfl
    have home : homeList (((mdb.newPage slab index).modifySlab slab (fun s =>
        { s with partialPagesNo := s.partialPagesNo + 1 })).slabs slab).perSlab
        ((mdb.newPage slab index).pages index).freeNr = .free := by
      rw [slabs_modifySlab, if_pos rfl]
      exact fresh
    obtain ⟨closed, moves⟩ := adopted.closePage owner home Recounts.partToFree
    rw [firstPage_eq]
    refine ⟨_, ⟨closed, ?_⟩, fun slot found => ?_, moves.framed.slabsCount, ?_⟩
    · intro slot off
      rw [moves.items]
      exact Sound.unset_newPage unset slab index _ slot off
    · exact (sound.settled.live_adopt (sound.unowned untaken)).mp found
    · intro other ne
      rw [slabs_modifySlab, if_neg ne.symm, slabs_linkPage_of_ne _ _ _ ne,
        slabs_modifySlab, if_neg ne.symm]
      rfl

theorem addSlab {param : MdbParam} {size : Nat} (intact : Intact mdb layout)
    (unused : Unused mdb) (count : mdb.slabsCount < 2 ^ 8)
    (large : mdbItemSize ≤ size) (fits : size ≤ param.room)
    (result : mdb.addSlab param size = .ok next) :
    ∃ relaid, Intact next relaid ∧ (∀ slot, relaid.Live slot → layout.Live slot) ∧
      Unused next ∧ next.slabsCount = mdb.slabsCount + 1 := by
  have room : param.room ≤ 2 ^ 21 := (Nat.sub_le _ _).trans param.pageSize_le
  have pos : 0 < param.room / size := by
    apply Nat.div_pos fits
    unfold mdbItemSize at large
    omega
  have bound : param.room / size ≤ 2 ^ 16 := by
    apply Nat.div_le_of_le_mul
    unfold mdbItemSize at large
    omega
  have grown := intact.newSlab size unused count pos bound
  obtain ⟨relaid, kept, fewer, same, others⟩ := grown.preAlloc (Nat.lt_succ_self _) result
  refine ⟨relaid, kept, fewer, ?_, same⟩
  intro slab beyond
  rw [same] at beyond
  have ne : slab ≠ mdb.slabsCount := by
    dsimp only at beyond
    omega
  rw [others slab ne]
  dsimp only at beyond ⊢
  rw [update_of_ne ne]
  exact unused slab (by omega)

theorem addSlabs {param : MdbParam} {sizes : List Nat}
    (fits : ∀ size, size ∈ sizes → mdbItemSize ≤ size ∧ size ≤ param.room)
    (count : mdb.slabsCount + sizes.length ≤ 2 ^ 8) (intact : Intact mdb layout)
    (unused : Unused mdb) (result : sizes.foldlM (MdbManager.addSlab param) mdb = .ok next) :
    ∃ relaid, Intact next relaid ∧ ∀ slot, relaid.Live slot → layout.Live slot := by
  induction sizes generalizing mdb layout with
  | nil =>
    cases result
    exact ⟨layout, intact, fun _ found => found⟩
  | cons size sizes hypothesis =>
    rw [List.length_cons] at count
    rw [List.foldlM_cons] at result
    obtain ⟨grown, first, rest⟩ := ok_of_bind result
    obtain ⟨large, small⟩ := fits size (List.mem_cons_self ..)
    obtain ⟨between, kept, fewer, stillUnused, same⟩ :=
      intact.addSlab unused (by omega) large small first
    obtain ⟨relaid, final, more⟩ := hypothesis
      (fun other inside => fits other (List.mem_cons_of_mem _ inside)) (by omega) kept stillUnused
      rest
    exact ⟨relaid, final, fun slot found => fewer slot (more slot found)⟩

theorem tablePages {rounds : List Nat} (intact : Intact mdb layout)
    (result : rounds.foldlM (fun (mdb : MdbManager) _ => mdb.takeTablePage) mdb =
      .ok next) :
    Intact next layout ∧ next.slabsCount = mdb.slabsCount ∧ next.slabs = mdb.slabs := by
  induction rounds generalizing mdb with
  | nil =>
    cases result
    exact ⟨intact, rfl, rfl⟩
  | cons round rounds hypothesis =>
    rw [List.foldlM_cons] at result
    obtain ⟨taken, first, rest⟩ := ok_of_bind result
    obtain ⟨kept, sameCount, sameSlabs⟩ := intact.takeTablePage first
    obtain ⟨final, finalCount, finalSlabs⟩ := hypothesis kept rest
    exact ⟨final, finalCount.trans sameCount, finalSlabs.trans sameSlabs⟩

end Intact

namespace MdbConfig

theorem le_align (size : Nat) : size ≤ align size := by
  unfold align
  omega

theorem baseSize_ge (param : MdbConfig) : mdbItemSize + 16 ≤ param.baseSize := by
  unfold baseSize
  split
  · exact le_align _
  · omega

theorem slabSizesFrom_length (param : MdbConfig) (count start : Nat) :
    (param.slabSizesFrom count start).length ≤ count := by
  induction count generalizing start with
  | zero => exact Nat.zero_le _
  | succ count hypothesis =>
    unfold slabSizesFrom
    split
    · exact Nat.succ_le_succ (hypothesis _)
    · exact Nat.zero_le _

/-- Slots do not get smaller from one slab to the next, and all fit into a page. -/
theorem of_mem_slabSizesFrom {param : MdbConfig} {count start size : Nat}
    (among : size ∈ param.slabSizesFrom count start) : start ≤ size ∧ size ≤ param.room := by
  induction count generalizing start with
  | zero => cases among
  | succ count hypothesis =>
    unfold slabSizesFrom at among
    split at among
    next fits =>
      obtain ⟨chosen, isChosen⟩ : ∃ chosen,
          (if param.room / 2 < start then param.room else start) = chosen := ⟨_, rfl⟩
      dsimp only at among
      rw [isChosen] at among
      have bounds : start ≤ chosen ∧ chosen ≤ param.room := by
        rw [← isChosen]
        split
        · exact ⟨fits, le_rfl⟩
        · exact ⟨le_rfl, fits⟩
      cases among with
      | head => exact bounds
      | tail _ among =>
        obtain ⟨grown, small⟩ := hypothesis among
        have next := (param.grow_ge chosen).trans (le_align _)
        exact ⟨by omega, small⟩
    · cases among

theorem of_mem_slabSizes {param : MdbConfig} {size : Nat} (among : size ∈ param.slabSizes) :
    mdbItemSize ≤ size ∧ size ≤ param.room := by
  obtain ⟨grown, small⟩ := of_mem_slabSizesFrom among
  have base := param.baseSize_ge
  exact ⟨by omega, small⟩

end MdbConfig

theorem intact_initialized {param : MdbParam} {start : MdbManager}
    (result : initialized param = .ok start) :
    ∃ layout, Intact start layout ∧ ∀ slot, ¬ layout.Live slot := by
  unfold initialized at result
  obtain ⟨table, tabled, result⟩ := ok_of_bind (ok_of_check result).2
  obtain ⟨intact, count, slabs⟩ := (MdbManager.intact_empty param).tablePages tabled
  have short := param.slabSizesFrom_length tairSlabLargest param.baseSize
  have room : table.slabsCount + param.slabSizes.length ≤ 2 ^ 8 := by
    rw [count]
    unfold MdbConfig.slabSizes
    unfold tairSlabLargest at short ⊢
    change 0 + _ ≤ _
    omega
  have unused : MdbManager.Unused table := by
    intro slab _
    rw [slabs]
    rfl
  obtain ⟨layout, started, fewer⟩ := intact.addSlabs (fun _ => MdbConfig.of_mem_slabSizes) room
    unused (ok_of_check result).2
  refine ⟨layout, started, fun slot found => ?_⟩
  obtain ⟨bucket, chained⟩ := fewer slot found
  cases chained

end Tair.Mdb
