/-
How pages change hands. A page is opened before the number of its free slots changes and closed
afterwards. Pages come from the pool and go back to it.
-/

import Tair.Mdb.Slots

namespace Tair.Mdb

open MdbManager Function Tair.Common Tair.Library

namespace Layout

variable {layout : Layout} {page other : Nat}

def reown (layout : Layout) (page : Nat) (slab : Option Nat) : Layout :=
  { layout with owner := Function.update layout.owner page slab }

theorem reown_self (slab : Option Nat) : (layout.reown page slab).owner page = slab :=
  update_self ..

theorem reown_of_ne (slab : Option Nat) (ne : other ≠ page) :
    (layout.reown page slab).owner other = layout.owner other :=
  update_of_ne ne _ _

end Layout

namespace MdbManager

theorem slabs_modifySlab (mdb : MdbManager) (slab other : Nat)
    (change : SlabManager → SlabManager) :
    (mdb.modifySlab slab change).slabs other =
      if slab = other then change (mdb.slabs other) else mdb.slabs other := by
  by_cases same : slab = other
  · rw [same, if_pos rfl]
    exact update_self ..
  · rw [if_neg same]
    exact update_of_ne (Ne.symm same) _ _

theorem slabs_keep {α : Type} {view : SlabManager → α} {change : SlabManager → SlabManager}
    (keeps : ∀ slab, view (change slab) = view slab) (mdb : MdbManager) (slab other : Nat) :
    view ((mdb.modifySlab slab change).slabs other) = view (mdb.slabs other) := by
  rw [slabs_modifySlab]
  split
  · exact keeps _
  · rfl

end MdbManager

structure Recounts (change : SlabManager → SlabManager) (before after : Option PageKind) :
    Prop where
  rest : ∀ slab, (change slab).uncounted = slab.uncounted
  pagesNo : ∀ slab which, (change slab).pagesNo which =
    slab.pagesNo which - (if before = some which then 1 else 0) +
      (if after = some which then 1 else 0)

namespace Moves

variable {mdb : MdbManager}

theorem linkPage (mdb : MdbManager) (slab page : Nat) (list : PageList) :
    Moves mdb (mdb.linkPage slab page list) := by
  rw [linkPage_eq]
  rfl

theorem unlinkPage (slab : Nat) {page : Nat} (list : PageList) (id : (mdb.pages page).id = page)
    (apart : mdb.pageNext page ≠ some page) : Moves mdb (mdb.unlinkPage slab page list) := by
  rw [unlinkPage_eq _ _ _ _ id apart]
  rfl

theorem modifySlab {change : SlabManager → SlabManager} {before after : Option PageKind}
    (recounts : Recounts change before after) (slab : Nat) :
    Moves mdb (mdb.modifySlab slab change) := by
  have keeps (s : SlabManager) : (change s).still = s.still :=
    show (change s).uncounted.still = s.uncounted.still by rw [recounts.rest]
  exact congrArg (fun slabs => { mdb.still with slabs }) (funext (slabs_keep keeps mdb slab))

end Moves

namespace PageLists

theorem modifySlab {mdb : MdbManager} {place : Nat → Option (Nat × PageList)}
    {change : SlabManager → SlabManager} {before after : Option PageKind}
    (lists : PageLists mdb place) (recounts : Recounts change before after) (slab : Nat) :
    PageLists (mdb.modifySlab slab change) place := by
  have keeps (s : SlabManager) : (change s).pageHead = s.pageHead :=
    show (change s).uncounted.pageHead = s.uncounted.pageHead by rw [recounts.rest]
  exact lists.congr (fun _ _ => ⟨rfl, rfl⟩) (slabs_keep keeps mdb slab)

end PageLists

namespace PageCounts

theorem modifySlab {mdb : MdbManager} {kind : Nat → Option (Nat × PageKind)} {page : Nat}
    {change : SlabManager → SlabManager} {before after : Option PageKind}
    (counts : PageCounts mdb kind) (recounts : Recounts change before after) (slab : Nat)
    (inside : page < mdb.pool.totalPages)
    (counted : kind page = before.map (fun which => (slab, which))) :
    PageCounts (mdb.modifySlab slab change)
      (update kind page (after.map (fun which => (slab, which)))) := by
  intro other which
  change _ = (tallyOn (Finset.range mdb.pool.totalPages) _ _ : Int)
  rw [TallyOn.tallyOn_update (Finset.mem_range.mpr inside), ← counts,
    slabs_modifySlab, counted]
  by_cases same : slab = other
  · subst same
    rw [if_pos rfl, recounts.pagesNo]
    simp only [Option.map_eq_some_iff, Prod.mk.injEq, true_and, exists_eq_right]
  · rw [if_neg same]
    simp only [Option.map_eq_some_iff, Prod.mk.injEq, same, false_and, and_false, exists_false,
      if_false]
    omega

end PageCounts

namespace Sound

variable {mdb next : MdbManager} {layout : Layout} {held : Option Slot} {opened : Option Nat}
  {slot : Slot} {slab page : Nat}

theorem freeNr_le (sound : Sound mdb layout held opened) (owner : layout.owner page = some slab) :
    (mdb.pages page).freeNr ≤ (mdb.slabs slab).perSlab := by
  rw [sound.freeNrs page slab owner]
  exact le_of_le_of_eq (Finset.card_filter_le _ _) (Finset.card_range _)

/-! ### Opening and closing -/

theorem pagePlace_none (mdb : MdbManager) (owner : layout.owner page = some slab) :
    layout.pagePlace mdb none page =
      some (slab, homeList (mdb.slabs slab).perSlab (mdb.pages page).freeNr) := by
  unfold Layout.pagePlace
  rw [if_neg (by simp), owner, Option.map_some]

theorem pageKind_none (mdb : MdbManager) (owner : layout.owner page = some slab) :
    layout.pageKind mdb none page =
      some (slab, (homeList (mdb.slabs slab).perSlab (mdb.pages page).freeNr).kind) := by
  unfold Layout.pageKind
  rw [owner, Option.map_some, if_neg (by simp)]

theorem pagePlace_some : layout.pagePlace mdb (some page) =
    update (layout.pagePlace mdb none) page none := by
  funext other
  by_cases same : other = page
  · subst same
    rw [update_self]
    unfold Layout.pagePlace
    rw [if_pos rfl]
  · rw [update_of_ne same]
    have apart : some page ≠ some other := fun own => same (Option.some.inj own).symm
    unfold Layout.pagePlace
    rw [if_neg apart, if_neg (by simp)]

theorem pageKind_some (owner : layout.owner page = some slab) :
    layout.pageKind mdb (some page) =
      update (layout.pageKind mdb none) page (some (slab, .part)) := by
  funext other
  by_cases same : other = page
  · subst same
    rw [update_self]
    unfold Layout.pageKind
    rw [owner, Option.map_some, if_pos rfl]
  · rw [update_of_ne same]
    have apart : some page ≠ some other := fun own => same (Option.some.inj own).symm
    unfold Layout.pageKind
    simp only [if_neg apart, reduceCtorEq, if_false]

theorem openPage {change : SlabManager → SlabManager} {list : PageList}
    (sound : Sound mdb layout held none) (owner : layout.owner page = some slab)
    (home : homeList (mdb.slabs slab).perSlab (mdb.pages page).freeNr = list)
    (recounts : Recounts change (some list.kind) (some .part)) :
    Sound ((mdb.unlinkPage slab page list).modifySlab slab change) layout held (some page) ∧
      Moves mdb ((mdb.unlinkPage slab page list).modifySlab slab change) := by
  obtain ⟨-, pos, inside, -, id⟩ := sound.settled.owned page slab owner
  have placed := pagePlace_none mdb owner
  have counted := pageKind_none mdb owner
  rw [home] at placed counted
  have apart : mdb.pageNext page ≠ some page := by
    obtain ⟨last, threaded⟩ := sound.pages
    exact threaded.forward.next_ne placed
  have unlinked := Moves.unlinkPage slab list id apart
  have moves := unlinked.trans (Moves.modifySlab recounts slab)
  refine ⟨moves.sound sound ?_ ?_, moves⟩
  · rw [pagePlace_some]
    exact (sound.pages.unlinkPage id (by omega) placed).modifySlab recounts slab
  · have counts : PageCounts (mdb.unlinkPage slab page list) (layout.pageKind mdb none) := by
      apply sound.counts.congr unlinked.framed.totalPages
      rw [unlinkPage_eq _ _ _ _ id apart]
      exact fun _ => rfl
    rw [pageKind_some owner]
    apply counts.modifySlab recounts slab _ counted
    rw [unlinked.pool]
    exact inside

theorem closePage {change : SlabManager → SlabManager} {list : PageList}
    (sound : Sound mdb layout held (some page)) (owner : layout.owner page = some slab)
    (home : homeList (mdb.slabs slab).perSlab (mdb.pages page).freeNr = list)
    (recounts : Recounts change (some .part) (some list.kind)) :
    Sound ((mdb.linkPage slab page list).modifySlab slab change) layout held none ∧
      Moves mdb ((mdb.linkPage slab page list).modifySlab slab change) := by
  obtain ⟨-, pos, inside, -, id⟩ := sound.settled.owned page slab owner
  have placed := pagePlace_none mdb owner
  have counted := pageKind_none mdb owner
  rw [home] at placed counted
  have linked := Moves.linkPage mdb slab page list
  have moves := linked.trans (Moves.modifySlab recounts slab)
  have pages := sound.pages
  have counts := sound.counts
  rw [pagePlace_some] at pages
  rw [pageKind_some owner] at counts
  refine ⟨moves.sound sound ?_ ?_, moves⟩
  · have lists := (pages.linkPage slab list id (by omega)
      (update_self ..)).modifySlab recounts slab
    rw [update_idem, ← placed, update_eq_self] at lists
    exact lists
  · have linkedCounts : PageCounts (mdb.linkPage slab page list)
        (update (layout.pageKind mdb none) page (some (slab, .part))) := by
      apply counts.congr linked.framed.totalPages
      rw [linkPage_eq]
      exact fun _ => rfl
    have total : page < (mdb.linkPage slab page list).pool.totalPages := by
      rw [linked.pool]
      exact inside
    have recounted := linkedCounts.modifySlab recounts slab total (update_self ..)
    rw [update_idem, Option.map_some, ← counted, update_eq_self] at recounted
    exact recounted

/-! ### Free slots -/

theorem tally_rehash (layout : Layout) (chain : Option ChainId) {perSlab : Nat} (inside : slot.offset < perSlab) :
    (tallyOn (Finset.range perSlab)
        (fun offset => (layout.rehash slot chain).chain ⟨slot.page, offset⟩)
        (some (.free slot.page)) : Int) =
      tallyOn (Finset.range perSlab) (fun offset => layout.chain ⟨slot.page, offset⟩)
          (some (.free slot.page)) -
        (if layout.chain slot = some (.free slot.page) then 1 else 0) +
        (if chain = some (.free slot.page) then 1 else 0) := by
  have rows : (fun offset => (layout.rehash slot chain).chain ⟨slot.page, offset⟩) =
      update (fun offset => layout.chain ⟨slot.page, offset⟩) slot.offset chain := by
    funext offset
    by_cases same : offset = slot.offset
    · subst same
      rw [update_self]
      exact Layout.rehash_self _
    · rw [update_of_ne same]
      apply Layout.rehash_of_ne
      intro equal
      exact same (congrArg Slot.offset equal)
  rw [rows, TallyOn.tallyOn_update (Finset.mem_range.mpr inside)]

section

variable {relaid : Layout} (pages : PageLists next (layout.pagePlace mdb (some page)))
  (counts : PageCounts next (layout.pageKind mdb (some page)))
  (owner : relaid.owner = layout.owner)
  (same : ∀ other slab, layout.owner other = some slab → some page ≠ some other →
    (next.slabs slab).perSlab = (mdb.slabs slab).perSlab ∧
      (next.pages other).freeNr = (mdb.pages other).freeNr)

include pages owner same in
theorem pages_opened : PageLists next (relaid.pagePlace next (some page)) := by
  rwa [(Layout.places_congr owner same).1]

include counts owner same in
theorem counts_opened : PageCounts next (relaid.pageKind next (some page)) := by
  rwa [(Layout.places_congr owner same).2]

end

theorem pop (sound : Sound mdb layout none (some page)) (owner : layout.owner page = some slab)
    (first : link (mdb.pages page).freeHead = some slot) :
    Sound (mdb.modifyPage page (fun info => { info with
        freeNr := info.freeNr - 1
        freeHead := (mdb.items slot).hNext }))
      (layout.rehash slot none) (some slot) (some page) := by
  have placed : layout.chain slot = some (.free page) := Chained.place_first sound.chains first
  obtain ⟨rfl, off, bound⟩ := sound.settled.freed slot page placed
  have inside := bound slab owner
  have settled : Settled mdb (layout.rehash slot none) (some slot) :=
    sound.settled.unhash (Or.inl rfl)
  have notFound : ¬ layout.Live slot := by
    intro found
    obtain ⟨bucket, hashed⟩ := found
    cases placed.symm.trans hashed
  rw [modifyPage_free mdb slot.page (fun freeNr => freeNr - 1)]
  refine ⟨{ sound.fits with },
    { settled with }, ?_, ?_, ?_, ?_, ?_, ?_,
    sound.counted_rehash notFound (by simp)⟩
  · exact sound.items.congr (fun _ _ => ⟨rfl, rfl⟩) (fun _ => rfl) (fun _ => rfl)
  · obtain ⟨nodes, chain, nodup, members⟩ := sound.chains (.free slot.page)
    cases nodes with
    | nil => cases chain.symm.trans first
    | cons node rest =>
      obtain rfl : node = slot := Option.some.inj (chain.1.symm.trans first)
      have split : Chain mdb.chainNext (mdb.chainFirst (.free node.page))
          ([] ++ node :: rest) := chain
      apply Chained.remove sound.chains split nodup rfl
      · unfold chainFirst
        dsimp only
        rw [if_pos rfl]
        rfl
      · intro other ne
        cases other with
        | hash bucket => rfl
        | free page =>
          unfold chainFirst
          dsimp only
          rw [if_neg (fun same => ne (congrArg ChainId.free same.symm))]
      · intro other ne
        rfl
  · have lists := sound.pages.congr (fun _ _ => ⟨rfl, rfl⟩) (fun _ => rfl)
    exact pages_opened lists rfl (fun _ _ _ ne => ⟨rfl, if_neg (mt (congrArg some) ne)⟩)
  · have counts := sound.counts.congr rfl (fun _ => rfl)
    exact counts_opened counts rfl (fun _ _ _ ne => ⟨rfl, if_neg (mt (congrArg some) ne)⟩)
  · intro page ofSlab ofOwner
    dsimp only
    by_cases same : slot.page = page
    · subst same
      cases owner.symm.trans ofOwner
      have count := tally_rehash layout none inside
      rw [if_pos placed, if_neg (by simp)] at count
      rw [if_pos rfl, sound.freeNrs slot.page slab owner]
      omega
    · rw [if_neg same]
      apply sound.freeNrs_rehash _ (by simp) ofOwner
      rw [placed]
      intro equal
      cases equal
      exact same rfl
  · intro other there unheld
    exact sound.blank other there (by simp)

theorem give (sound : Sound mdb layout (some slot) (some slot.page))
    (owner : layout.owner slot.page = some slab)
    (inside : slot.offset < (mdb.slabs slab).perSlab) (off : layout.list slot = none)
    (unchained : layout.chain slot = none) :
    Sound ((mdb.modifyItem slot (fun item =>
        { item with prev := 0, next := 0, hNext := (mdb.pages slot.page).freeHead })).modifyPage
        slot.page (fun info => { info with
          freeNr := info.freeNr + 1
          freeHead := (mdb.items slot).itemId }))
      (layout.rehash slot (some (.free slot.page))) none (some slot.page) := by
  have own := (sound.settled.ids slot slab owner inside).link_eq
  have settled := sound.settled.free owner inside off
  have notFound : ¬ layout.Live slot := by
    intro found
    obtain ⟨bucket, hashed⟩ := found
    cases unchained.symm.trans hashed
  have apart : ∀ other, other ≠ slot → some slot ≠ some other := by
    intro other ne same
    exact ne (Option.some.inj same).symm
  have item : mdb.modifyItem slot (fun item =>
      { item with prev := 0, next := 0, hNext := (mdb.pages slot.page).freeHead }) =
      { mdb with
        items := fun other => { mdb.items other with
          prev := if slot = other then 0 else (mdb.items other).prev
          next := if slot = other then 0 else (mdb.items other).next
          hNext := if slot = other then (mdb.pages slot.page).freeHead
            else (mdb.items other).hNext } } := by
    rw [modifyItem_eq]
    congr 1
    funext other
    by_cases same : slot = other
    · simp only [if_pos same]
    · simp only [if_neg same]
  rw [item, modifyPage_free _ slot.page (fun freeNr => freeNr + 1)]
  refine ⟨{ sound.fits with },
    { settled with }, ?_, ?_, ?_, ?_, ?_, ?_,
    sound.counted_rehash notFound (by simp)⟩
  · refine sound.items.congr ?_ (fun _ => rfl) (fun _ => rfl)
    intro other onList
    have ne : slot ≠ other := by
      intro same
      rw [same] at off
      exact onList off
    dsimp only
    rw [if_neg ne, if_neg ne]
    exact ⟨rfl, rfl⟩
  · refine Chained.push sound.chains (.free slot.page) unchained ?_ ?_ ?_ ?_
    · unfold chainFirst
      dsimp only
      rw [if_pos rfl, own]
    · intro other ne
      cases other with
      | hash bucket => rfl
      | free page =>
        unfold chainFirst
        dsimp only
        rw [if_neg (fun same => ne (congrArg ChainId.free same.symm))]
    · unfold chainNext
      dsimp only
      rw [if_pos rfl]
      rfl
    · intro other ne
      unfold chainNext
      dsimp only
      rw [if_neg (Ne.symm ne)]
  · have lists := sound.pages.congr (fun _ _ => ⟨rfl, rfl⟩) (fun _ => rfl)
    exact pages_opened lists rfl (fun _ _ _ ne => ⟨rfl, if_neg (mt (congrArg some) ne)⟩)
  · have counts := sound.counts.congr rfl (fun _ => rfl)
    exact counts_opened counts rfl (fun _ _ _ ne => ⟨rfl, if_neg (mt (congrArg some) ne)⟩)
  · intro page ofSlab ofOwner
    dsimp only
    by_cases same : slot.page = page
    · subst same
      cases owner.symm.trans ofOwner
      have count := tally_rehash layout (some (.free slot.page)) inside
      rw [if_neg (by rw [unchained]; simp), if_pos rfl] at count
      rw [if_pos rfl, sound.freeNrs slot.page slab owner]
      omega
    · rw [if_neg same]
      apply sound.freeNrs_rehash _ _ ofOwner
      · rw [unchained]
        simp
      · intro equal
        cases equal
        exact same rfl
  · intro other there _
    dsimp only
    by_cases same : slot = other
    · rw [if_pos same, if_pos same]
      exact ⟨rfl, rfl⟩
    · rw [if_neg same, if_neg same]
      exact sound.blank other there (apart other (Ne.symm same))

/-! ### Pages go back to the pool -/

theorem unlisted_of_free (sound : Sound mdb layout held opened)
    (owner : layout.owner slot.page = some slab)
    (free : (mdb.pages slot.page).freeNr = (mdb.slabs slab).perSlab) : layout.list slot = none := by
  cases onList : layout.list slot with
  | none => rfl
  | some list =>
    obtain ⟨ofOwner, inside⟩ := sound.settled.listed slot list.1 list.2 onList
    cases owner.symm.trans ofOwner
    rw [sound.freeNrs slot.page _ owner] at free
    have all := TallyOn.forall_of_tallyOn_eq_card (free.trans (Finset.card_range _).symm)
    have chained := all slot.offset (Finset.mem_range.mpr inside)
    exact absurd (sound.settled.freed slot slot.page chained).2.1 (by rw [onList]; simp)

theorem release {change : SlabManager → SlabManager} (sound : Sound mdb layout none (some page))
    (owner : layout.owner page = some slab)
    (free : (mdb.pages page).freeNr = (mdb.slabs slab).perSlab)
    (recounts : Recounts change (some .part) none) :
    Sound { mdb.modifySlab slab change with pool := mdb.pool.freePage page }
      (layout.reown page none) none none := by
  obtain ⟨-, pos, inside, taken, -⟩ := sound.settled.owned page slab owner
  have unlisted : ∀ slot, slot.page = page → layout.list slot = none := by
    intro slot own
    subst own
    exact sound.unlisted_of_free owner free
  have released : ∀ other ofSlab, (layout.reown page none).owner other = some ofSlab →
      other ≠ page ∧ layout.owner other = some ofSlab := by
    intro other ofSlab ofOwner
    by_cases same : other = page
    · rw [same, Layout.reown_self] at ofOwner
      cases ofOwner
    · rw [Layout.reown_of_ne none same] at ofOwner
      exact ⟨same, ofOwner⟩
  have moves : Moves mdb (mdb.modifySlab slab change) := Moves.modifySlab recounts slab
  have pool : mdb.pool.freePage page = { mdb.pool with
      freePages := mdb.pool.freePages + 1
      pageBitmap := update mdb.pool.pageBitmap page false } := by
    unfold MemPool.freePage
    rw [if_pos taken]
  have settled := moves.framed.settled sound.settled
  have place : (layout.reown page none).pagePlace (mdb.modifySlab slab change) none =
      layout.pagePlace mdb (some page) := by
    funext other
    rw [pagePlace_some]
    by_cases same : other = page
    · rw [same, update_self]
      unfold Layout.pagePlace
      rw [if_neg (by simp), Layout.reown_self, Option.map_none]
    · rw [update_of_ne same]
      unfold Layout.pagePlace
      simp only [Layout.reown_of_ne none same, moves.perSlab, moves.freeNr]
  have kind : (layout.reown page none).pageKind (mdb.modifySlab slab change) none =
      update (layout.pageKind mdb (some page)) page none := by
    funext other
    rw [pageKind_some owner, update_idem]
    by_cases same : other = page
    · rw [same, update_self]
      unfold Layout.pageKind
      rw [Layout.reown_self, Option.map_none]
    · rw [update_of_ne same]
      unfold Layout.pageKind
      simp only [Layout.reown_of_ne none same, moves.perSlab, moves.freeNr]
  rw [pool]
  refine ⟨⟨sound.fits.totalPages, (moves.framed.fits sound.fits).slabsCount,
      (moves.framed.fits sound.fits).perSlab⟩,
    ⟨?_, ?_, ?_, settled.live, settled.onList, settled.hashed, settled.distinct, ?_, ?_⟩,
    ?_, ?_, ?_, ?_, ?_, sound.blank, sound.counted⟩
  · intro other ofSlab ofOwner
    obtain ⟨ne, before⟩ := released other ofSlab ofOwner
    obtain ⟨count, above, below, used, id⟩ := settled.owned other ofSlab before
    refine ⟨count, above, below, ?_, id⟩
    dsimp only
    rw [update_of_ne ne]
    exact used
  · intro slot ofSlab ofOwner within
    exact settled.ids slot ofSlab (released _ ofSlab ofOwner).2 within
  · intro slot ofSlab ofArea onList
    have ne : slot.page ≠ page := by
      intro own
      cases (unlisted slot own).symm.trans onList
    obtain ⟨ofOwner, within⟩ := settled.listed slot ofSlab ofArea onList
    exact ⟨(Layout.reown_of_ne none ne).trans ofOwner, within⟩
  · intro slot other chained
    obtain ⟨own, off, bound⟩ := settled.freed slot other chained
    refine ⟨own, off, ?_⟩
    intro ofSlab ofOwner
    exact bound ofSlab (released other ofSlab ofOwner).2
  · intro slot ofSlab ofOwner within off unheld
    exact settled.kept slot ofSlab (released _ ofSlab ofOwner).2 within off unheld
  · exact sound.items.congr (fun _ _ => ⟨rfl, rfl⟩) moves.itemList moves.slabSize
  · exact sound.chains.congr (fun _ _ => rfl) rfl (fun _ => rfl)
  · have lists := sound.pages.modifySlab recounts slab
    rw [← place] at lists
    exact lists.congr (fun _ _ => ⟨rfl, rfl⟩) (fun _ => rfl)
  · have counted : layout.pageKind mdb (some page) page = some (slab, .part) := by
      rw [pageKind_some owner, update_self]
    have counts := sound.counts.modifySlab recounts slab inside counted
    rw [Option.map_none, ← kind] at counts
    exact counts.congr rfl (fun _ => rfl)
  · intro other ofSlab ofOwner
    have count := sound.freeNrs other ofSlab (released other ofSlab ofOwner).2
    rw [← moves.perSlab] at count
    exact count

end Sound

/-! ### Pages come from the pool -/

namespace MemPool

variable {pool next : MemPool} {index : Nat}

theorem search_free {turns current : Nat} (found : pool.search turns current = .ok index) :
    pool.pageBitmap index = false := by
  induction turns generalizing current with
  | zero => cases found
  | succ turns ih =>
    unfold search at found
    generalize (if current = pool.totalPages then 0 else current) = place at found
    by_cases taken : pool.pageBitmap place = true
    · rw [if_pos taken] at found
      exact ih found
    · rw [if_neg taken] at found
      cases found
      exact Bool.eq_false_iff.mpr taken

theorem allocPage_some (given : pool.allocPage = .ok (next, some index)) :
    next = pool.taken index ∧ pool.pageBitmap index = false ∧ 0 < index ∧
      index < pool.totalPages := by
  unfold allocPage at given
  split at given
  · cases given
  · split at given
    · cases given
    next found =>
      obtain ⟨bounds, result⟩ := ok_of_check given
      cases result
      exact ⟨rfl, search_free found, bounds⟩

theorem allocPage_none (given : pool.allocPage = .ok (next, none)) :
    next = pool ∧ pool.freePages = 0 := by
  unfold allocPage at given
  split at given
  · cases given
    exact ⟨rfl, ‹_›⟩
  · split at given
    · cases given
    · obtain ⟨-, result⟩ := ok_of_check given
      cases result

end MemPool

namespace Layout

def adopt (layout : Layout) (page slab perSlab : Nat) : Layout :=
  { layout.reown page (some slab) with
    chain := fun slot =>
      if slot.page = page then if slot.offset < perSlab then some (.free page) else none
      else layout.chain slot }

variable {layout : Layout} {page slab perSlab : Nat} {slot : Slot}

theorem adopt_of_ne (ne : slot.page ≠ page) :
    (layout.adopt page slab perSlab).chain slot = layout.chain slot :=
  if_neg ne

theorem adopt_of_lt (own : slot.page = page) (inside : slot.offset < perSlab) :
    (layout.adopt page slab perSlab).chain slot = some (.free page) := by
  unfold adopt
  dsimp only
  rw [if_pos own, if_pos inside]

theorem adopt_eq_some {chain : ChainId} (own : slot.page = page)
    (chained : (layout.adopt page slab perSlab).chain slot = some chain) :
    chain = .free page ∧ slot.offset < perSlab := by
  unfold adopt at chained
  dsimp only at chained
  rw [if_pos own] at chained
  split at chained
  · cases chained
    exact ⟨rfl, ‹_›⟩
  · cases chained

theorem eq_of_adopt_owner {other : Nat}
    (owner : (layout.adopt page slab perSlab).owner page = some other) : slab = other :=
  Option.some.inj ((reown_self (some slab)).symm.trans owner)

theorem adopt_owner_of_ne {other : Nat} (ne : other ≠ page) :
    (layout.adopt page slab perSlab).owner other = layout.owner other :=
  reown_of_ne _ ne

end Layout

namespace MdbManager

def newPage (manager : MdbManager) (slab index : Nat) : MdbManager :=
  initPage { manager with pool := manager.pool.taken index } slab index

variable {mdb : MdbManager} {slab index : Nat} {slot : Slot}

theorem newPage_items_of_ne (other : slot.page ≠ index) :
    (mdb.newPage slab index).items slot = mdb.items slot :=
  if_neg other

theorem newPage_pages_of_ne {page : Nat} (other : page ≠ index) :
    (mdb.newPage slab index).pages page = mdb.pages page :=
  update_of_ne other _ _

theorem newPage_pages_self : (mdb.newPage slab index).pages index =
    ⟨index, (mdb.slabs slab).perSlab, 0, 0, itemId (mdb.slabs slab).slabSize 0 index slab⟩ :=
  update_self ..

theorem newPage_items_self (mdb : MdbManager) (slab : Nat) (own : slot.page = index) :
    ((mdb.newPage slab index).items slot).prev = 0 ∧
      ((mdb.newPage slab index).items slot).next = 0 ∧
      ((mdb.newPage slab index).items slot).exptime = 0 ∧
      itemFlags ((mdb.newPage slab index).items slot).itemId = 0 := by
  unfold newPage initPage
  dsimp only
  rw [if_pos own]
  split
  · exact ⟨rfl, rfl, rfl, itemFlags_itemId _ _ _ _⟩
  · exact ⟨rfl, rfl, rfl, rfl⟩

theorem newPage_itemId_self (own : slot.page = index)
    (inside : slot.offset < (mdb.slabs slab).perSlab) :
    ((mdb.newPage slab index).items slot).itemId =
      itemId (mdb.slabs slab).slabSize slot.offset index slab := by
  unfold newPage initPage
  dsimp only
  rw [if_pos own, if_pos inside]

theorem chain_newPage (page : index < 2 ^ 16) (real : index ≠ 0)
    (bound : (mdb.slabs slab).perSlab ≤ 2 ^ 16) (count : Nat) :
    ∀ start, start + count = (mdb.slabs slab).perSlab →
      Chain (mdb.newPage slab index).chainNext
        (link (if start < (mdb.slabs slab).perSlab then
          itemId (mdb.slabs slab).slabSize start index slab else 0))
        ((List.range' start count).map (fun offset => ⟨index, offset⟩)) := by
  induction count with
  | zero =>
    intro start all
    rw [if_neg (by omega)]
    exact link_zero
  | succ count ih =>
    intro start all
    have inside : start < (mdb.slabs slab).perSlab := by omega
    have slot : slotOf (itemId (mdb.slabs slab).slabSize start index slab) =
        ⟨index, start⟩ := slotOf_itemId (by omega) page
    have some : itemId (mdb.slabs slab).slabSize start index slab ≠ 0 := by
      intro zero
      rw [zero] at slot
      exact real (congrArg Slot.page slot).symm
    have step : (mdb.newPage slab index).chainNext ⟨index, start⟩ =
        link (if start + 1 < (mdb.slabs slab).perSlab then
          itemId (mdb.slabs slab).slabSize (start + 1) index slab else 0) := by
      unfold chainNext newPage initPage
      dsimp only
      rw [if_pos rfl, if_pos inside]
    rw [if_pos inside, List.range'_succ, List.map_cons]
    refine ⟨?_, ?_⟩
    · rw [link_of_ne some, slot]
    · rw [step]
      exact ih (start + 1) (by omega)

end MdbManager

section
variable {mdb : MdbManager} {layout : Layout} {slab index : Nat}

theorem Sound.unowned (sound : Sound mdb layout none none)
    (untaken : mdb.pool.pageBitmap index = false) : layout.owner index = none := by
  cases owner : layout.owner index with
  | none => rfl
  | some other =>
    obtain ⟨-, -, -, taken, -⟩ := sound.settled.owned index other owner
    rw [untaken] at taken
    cases taken

section

variable (settled : Settled mdb layout none) (unowned : layout.owner index = none)

include settled unowned

theorem Settled.page_ne {slot : Slot} {list : Nat × Nat} (onList : layout.list slot = some list) :
    slot.page ≠ index := by
  obtain ⟨owner, -⟩ := settled.listed slot list.1 list.2 onList
  intro own
  rw [own, unowned] at owner
  cases owner

theorem Settled.page_ne_of_live {slot : Slot} (found : layout.Live slot) : slot.page ≠ index := by
  cases onList : layout.list slot with
  | none => exact absurd onList (settled.onList slot found (by simp))
  | some list => exact settled.page_ne unowned onList

theorem Settled.live_adopt {slot : Slot} {perSlab : Nat} :
    (layout.adopt index slab perSlab).Live slot ↔ layout.Live slot := by
  by_cases own : slot.page = index
  · constructor
    · intro found
      obtain ⟨bucket, chained⟩ := found
      cases (Layout.adopt_eq_some own chained).1
    · intro found
      exact absurd own (settled.page_ne_of_live unowned found)
  · unfold Layout.Live
    rw [Layout.adopt_of_ne own]

end

theorem Settled.adopt (settled : Settled mdb layout none) (fits : Fits mdb)
    (slabBound : slab < mdb.slabsCount) (unowned : layout.owner index = none)
    (pos : 0 < index) (below : index < mdb.pool.totalPages) :
    Settled (mdb.newPage slab index) (layout.adopt index slab (mdb.slabs slab).perSlab)
      none := by
  obtain ⟨-, bound⟩ := fits.perSlab slab slabBound
  have pageBound : index < 2 ^ 16 := lt_of_lt_of_le below fits.totalPages
  have idBound : slab < 2 ^ 8 := lt_of_lt_of_le slabBound fits.slabsCount
  refine ⟨?_, ?_, ?_, ?_, ?_, ?_, ?_, ?_, ?_⟩
  · intro page ofSlab owner
    by_cases own : page = index
    · subst own
      cases Layout.eq_of_adopt_owner owner
      rw [newPage_pages_self]
      refine ⟨slabBound, pos, below, ?_, rfl⟩
      exact update_self ..
    · obtain ⟨count, above, total, taken, id⟩ := settled.owned page ofSlab
        ((Layout.adopt_owner_of_ne own).symm.trans owner)
      rw [newPage_pages_of_ne own]
      refine ⟨count, above, total, ?_, id⟩
      exact (update_of_ne own _ _).trans taken
  · intro slot ofSlab owner inside
    by_cases own : slot.page = index
    · rw [own] at owner
      cases Layout.eq_of_adopt_owner owner
      have inside : slot.offset < (mdb.slabs slab).perSlab := inside
      have slotIs : slotOf (itemId (mdb.slabs slab).slabSize slot.offset index slab) = slot := by
        rw [slotOf_itemId (lt_of_lt_of_le inside bound) pageBound, ← own]
      rw [newPage_itemId_self own inside]
      refine ⟨?_, ?_, slotIs, slabId_itemId idBound, slabSize_itemId _ _ _ _⟩
      · intro zero
        rw [zero] at slotIs
        have page : slot.page = 0 := (congrArg Slot.page slotIs).symm
        omega
      · omega
    · rw [newPage_items_of_ne own]
      exact settled.ids slot ofSlab ((Layout.adopt_owner_of_ne own).symm.trans owner) inside
  · intro slot ofSlab ofArea onList
    obtain ⟨owner, inside⟩ := settled.listed slot ofSlab ofArea onList
    exact ⟨(Layout.adopt_owner_of_ne (settled.page_ne unowned onList)).trans owner, inside⟩
  · intro slot ofSlab ofArea onList unheld
    rw [newPage_items_of_ne (settled.page_ne unowned onList), settled.live_adopt unowned]
    exact settled.live slot ofSlab ofArea onList unheld
  · intro slot found unheld
    rw [settled.live_adopt unowned] at found
    exact settled.onList slot found unheld
  · intro slot bucket chained
    have found : layout.Live slot := (settled.live_adopt unowned).mp ⟨bucket, chained⟩
    have other := settled.page_ne_of_live unowned found
    rw [Layout.adopt_of_ne other] at chained
    rw [newPage_items_of_ne other]
    exact settled.hashed slot bucket chained
  · intro slot other found otherFound
    rw [settled.live_adopt unowned] at found otherFound
    rw [newPage_items_of_ne (settled.page_ne_of_live unowned found),
      newPage_items_of_ne (settled.page_ne_of_live unowned otherFound)]
    exact settled.distinct slot other found otherFound
  · intro slot page chained
    by_cases own : slot.page = index
    · obtain ⟨same, inside⟩ := Layout.adopt_eq_some own chained
      cases same
      refine ⟨own, ?_, ?_⟩
      · cases onList : layout.list slot with
        | none => exact onList
        | some list => exact absurd own (settled.page_ne unowned onList)
      · intro ofSlab owner
        cases Layout.eq_of_adopt_owner owner
        exact inside
    · rw [Layout.adopt_of_ne own] at chained
      obtain ⟨same, off, within⟩ := settled.freed slot page chained
      subst same
      refine ⟨rfl, off, ?_⟩
      intro ofSlab owner
      exact within ofSlab ((Layout.adopt_owner_of_ne own).symm.trans owner)
  · intro slot ofSlab owner inside off unheld
    by_cases own : slot.page = index
    · rw [own] at owner
      cases Layout.eq_of_adopt_owner owner
      have inside : slot.offset < (mdb.slabs slab).perSlab := inside
      rw [Layout.adopt_of_lt own inside, own]
    · rw [Layout.adopt_of_ne own]
      exact settled.kept slot ofSlab ((Layout.adopt_owner_of_ne own).symm.trans owner) inside off
        unheld

theorem Chains.adopt (chains : Chains mdb layout.chain) (settled : Settled mdb layout none)
    (fits : Fits mdb) (slabBound : slab < mdb.slabsCount)
    (unowned : layout.owner index = none) (pos : 0 < index) (below : index < mdb.pool.totalPages) :
    Chains (mdb.newPage slab index) (layout.adopt index slab (mdb.slabs slab).perSlab).chain := by
  obtain ⟨some, bound⟩ := fits.perSlab slab slabBound
  have pageBound : index < 2 ^ 16 := lt_of_lt_of_le below fits.totalPages
  have chain := chain_newPage pageBound (by omega) bound (mdb.slabs slab).perSlab 0 (by simp)
  rw [if_pos some] at chain
  have first : (mdb.newPage slab index).chainFirst (.free index) =
      link (itemId (mdb.slabs slab).slabSize 0 index slab) := by
    unfold chainFirst
    dsimp only
    rw [newPage_pages_self]
  rw [← first] at chain
  apply Chained.replace chains chain
  · apply List.Nodup.map _ List.nodup_range'
    intro one two same
    exact congrArg Slot.offset same
  · intro other ne
    cases other with
    | hash bucket => rfl
    | free page =>
      unfold chainFirst
      dsimp only
      rw [newPage_pages_of_ne (fun same => ne (congrArg ChainId.free same))]
  · intro slot other chained ne
    have apart : slot.page ≠ index := by
      intro own
      cases other with
      | hash bucket => exact settled.page_ne_of_live unowned ⟨bucket, chained⟩ own
      | free page =>
        obtain ⟨same, -⟩ := settled.freed slot page chained
        exact ne (congrArg ChainId.free (same.symm.trans own))
    unfold chainNext
    rw [newPage_items_of_ne apart]
  · intro slot
    rw [List.mem_map]
    constructor
    · intro chained
      by_cases own : slot.page = index
      · obtain ⟨-, inside⟩ := Layout.adopt_eq_some own chained
        refine ⟨slot.offset, ?_, ?_⟩
        · rw [List.mem_range'_1]
          omega
        · rw [← own]
      · rw [Layout.adopt_of_ne own] at chained
        exact absurd (settled.freed slot index chained).1 own
    · intro member
      obtain ⟨offset, inside, rfl⟩ := member
      rw [List.mem_range'_1] at inside
      exact Layout.adopt_of_lt rfl (by dsimp only; omega)
  · intro slot other ne
    by_cases own : slot.page = index
    · constructor
      · intro chained
        exact absurd (Layout.adopt_eq_some own chained).1 ne
      · intro chained
        cases other with
        | hash bucket => exact absurd own (settled.page_ne_of_live unowned ⟨bucket, chained⟩)
        | free page =>
          obtain ⟨same, -⟩ := settled.freed slot page chained
          exact absurd (congrArg ChainId.free (same.symm.trans own)) ne
    · rw [Layout.adopt_of_ne own]

theorem Sound.adopt {change : SlabManager → SlabManager} (sound : Sound mdb layout none none)
    (slabBound : slab < mdb.slabsCount) (untaken : mdb.pool.pageBitmap index = false)
    (pos : 0 < index) (below : index < mdb.pool.totalPages)
    (recounts : Recounts change none (some .part)) :
    Sound ((mdb.newPage slab index).modifySlab slab change)
      (layout.adopt index slab (mdb.slabs slab).perSlab) none (some index) := by
  have unowned := sound.unowned untaken
  have settled := sound.settled.adopt sound.fits slabBound unowned pos below
  have moves : Moves (mdb.newPage slab index)
      ((mdb.newPage slab index).modifySlab slab change) := Moves.modifySlab recounts slab
  have place : (layout.adopt index slab (mdb.slabs slab).perSlab).pagePlace
      (mdb.newPage slab index) (some index) = layout.pagePlace mdb none := by
    funext page
    unfold Layout.pagePlace
    by_cases own : page = index
    · rw [own, if_pos rfl, if_neg (by simp), unowned, Option.map_none]
    · have apart : some index ≠ some page := fun same => own (Option.some.inj same).symm
      rw [if_neg apart, if_neg (by simp), Layout.adopt_owner_of_ne own, newPage_pages_of_ne own]
      rfl
  have kind : (layout.adopt index slab (mdb.slabs slab).perSlab).pageKind
      (mdb.newPage slab index) (some index) =
        update (layout.pageKind mdb none) index (some (slab, .part)) := by
    funext page
    by_cases own : page = index
    · rw [own, update_self]
      unfold Layout.pageKind Layout.adopt
      rw [Layout.reown_self, Option.map_some, if_pos rfl]
    · have apart : some index ≠ some page := fun same => own (Option.some.inj same).symm
      rw [update_of_ne own]
      unfold Layout.pageKind
      simp only [Layout.adopt_owner_of_ne own, if_neg apart, newPage_pages_of_ne own]
      rfl
  have pages : PageLists (mdb.newPage slab index) (layout.pagePlace mdb none) := by
    refine PageLists.congr sound.pages ?_ (fun _ => rfl)
    intro page placed
    have other : page ≠ index := by
      intro own
      apply placed
      unfold Layout.pagePlace
      rw [own, if_neg (by simp), unowned, Option.map_none]
    rw [newPage_pages_of_ne other]
    exact ⟨rfl, rfl⟩
  have counted : layout.pageKind mdb none index = none := by
    unfold Layout.pageKind
    rw [unowned, Option.map_none]
  have counts : PageCounts (mdb.newPage slab index) (layout.pageKind mdb none) :=
    sound.counts.congr rfl (fun _ => rfl)
  have total : index < (mdb.newPage slab index).pool.totalPages := below
  have fits : Fits (mdb.newPage slab index) :=
    { sound.fits with }
  refine ⟨moves.framed.fits fits, moves.framed.settled settled, ?_, ?_, ?_, ?_, ?_, ?_, ?_⟩
  · refine sound.items.congr ?_ moves.itemList moves.slabSize
    intro slot onList
    cases list : layout.list slot with
    | none => exact absurd list onList
    | some place =>
      rw [moves.items, newPage_items_of_ne (sound.settled.page_ne unowned list)]
      exact ⟨rfl, rfl⟩
  · exact sound.chains.adopt sound.settled sound.fits slabBound unowned pos below
  · have lists := pages.modifySlab recounts slab
    rw [← place] at lists
    exact Sound.pages_opened lists rfl (fun _ slab _ _ => ⟨moves.perSlab slab, rfl⟩)
  · have recounted := counts.modifySlab recounts slab total counted
    rw [Option.map_some, ← kind] at recounted
    exact Sound.counts_opened recounted rfl (fun _ slab _ _ => ⟨moves.perSlab slab, rfl⟩)
  · intro page ofSlab owner
    rw [moves.perSlab, moves.freeNr]
    by_cases own : page = index
    · subst own
      cases Layout.eq_of_adopt_owner owner
      rw [newPage_pages_self]
      symm
      refine (TallyOn.tallyOn_eq_card ?_).trans (Finset.card_range _)
      intro offset inside
      exact Layout.adopt_of_lt rfl (Finset.mem_range.mp inside)
    · rw [newPage_pages_of_ne own,
        sound.freeNrs page ofSlab ((Layout.adopt_owner_of_ne own).symm.trans owner)]
      apply TallyOn.tallyOn_congr
      intro offset inside
      have apart : (⟨page, offset⟩ : Slot).page ≠ index := own
      rw [Layout.adopt_of_ne apart]
  · intro slot off unheld
    rw [moves.items]
    by_cases own : slot.page = index
    · obtain ⟨prev, next, -⟩ := newPage_items_self mdb slab own
      exact ⟨prev, next⟩
    · rw [newPage_items_of_ne own]
      exact sound.blank slot off unheld
  · obtain ⟨found, members, count⟩ := sound.counted
    refine ⟨found, ?_, count⟩
    intro slot
    rw [members, sound.settled.live_adopt unowned]

end

end Tair.Mdb
