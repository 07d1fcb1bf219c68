/-
Items are removed: an item leaves the hash table and its list, its slot goes back to the
page, and the page to the list for its free slots, or to the pool when it is empty and
not the last one of its slab.
-/

import Tair.Mdb.Allocation
import Tair.Mdb.Manager

namespace Tair.Mdb

open MdbManager Function Tair.Library

variable {mdb next : MdbManager} {layout : Layout} {held : Option Slot} {slot : Slot}
  {slab page : Nat}

namespace Recounts

theorem fullToPart : Recounts (fun s => { s with
    fullPagesNo := s.fullPagesNo - 1
    partialPagesNo := s.partialPagesNo + 1 }) (some .full) (some .part) := by
  refine ⟨fun _ => rfl, fun slab which => ?_⟩
  cases which <;> simp [SlabManager.pagesNo]

theorem fromPart : Recounts (fun s => { s with
    partialPagesNo := s.partialPagesNo - 1 }) (some .part) none := by
  refine ⟨fun _ => rfl, fun slab which => ?_⟩
  cases which <;> simp [SlabManager.pagesNo]

theorem partToFree : Recounts (fun s => { s with
    partialPagesNo := s.partialPagesNo - 1
    freePagesNo := s.freePagesNo + 1 }) (some .part) (some .free) := by
  refine ⟨fun _ => rfl, fun slab which => ?_⟩
  cases which <;> simp [SlabManager.pagesNo]

end Recounts

namespace MdbManager

variable (mdb : MdbManager)

theorem modifySlab_modifySlab (slab : Nat) (first second : SlabManager → SlabManager) :
    (mdb.modifySlab slab first).modifySlab slab second =
      mdb.modifySlab slab (fun s => second (first s)) := by
  unfold modifySlab
  dsimp only
  rw [update_self, update_idem]

theorem linkPage_modifySlab (slab page : Nat) (list : PageList) {change : SlabManager → SlabManager}
    (pageHead : ∀ s, (change s).pageHead = s.pageHead)
    (withPageHeads : ∀ s heads, change (s.withPageHeads heads) = (change s).withPageHeads heads) :
    (mdb.modifySlab slab change).linkPage slab page list =
      (mdb.linkPage slab page list).modifySlab slab change := by
  have heads : ∀ other, ((mdb.modifySlab slab change).slabs other).pageHead =
      (mdb.slabs other).pageHead := by
    intro other
    rw [slabs_modifySlab]
    split
    · rw [pageHead]
    · rfl
  have slabs : (fun other => ((mdb.modifySlab slab change).slabs other).withPageHeads (fun l =>
        if (slab, list) = (other, l) then (mdb.pages page).id
        else (mdb.slabs other).pageHead l)) =
      update (fun other => (mdb.slabs other).withPageHeads (fun l =>
        if (slab, list) = (other, l) then (mdb.pages page).id
        else (mdb.slabs other).pageHead l)) slab
        (change ((mdb.slabs slab).withPageHeads (fun l =>
          if (slab, list) = (slab, l) then (mdb.pages page).id
          else (mdb.slabs slab).pageHead l))) := by
    funext other
    rw [slabs_modifySlab]
    by_cases same : slab = other
    · subst same
      rw [if_pos rfl, update_self, withPageHeads]
    · rw [if_neg same, update_of_ne (Ne.symm same)]
  have pages : (mdb.modifySlab slab change).pages = mdb.pages := rfl
  rw [linkPage_eq, linkPage_eq]
  unfold pageFirst
  simp only [heads, pages]
  rw [slabs]
  rfl

end MdbManager

namespace MdbManager

def reopenPage (manager : MdbManager) (slab page : Nat) : MdbManager :=
  if (manager.pages page).freeNr = 0 then
    (manager.unlinkPage slab page .full).modifySlab slab (fun s =>
      { s with fullPagesNo := s.fullPagesNo - 1, partialPagesNo := s.partialPagesNo + 1 })
  else manager.unlinkPage slab page (.part ((manager.pages page).freeNr / partialPageBucket))

def pushSlot (manager : MdbManager) (slot : Slot) : MdbManager :=
  (manager.modifyItem slot (fun item => { item with
      prev := 0
      next := 0
      hNext := (manager.pages slot.page).freeHead })).modifyPage slot.page (fun info => { info with
        freeNr := info.freeNr + 1
        freeHead := (manager.items slot).itemId })

def refilePage (manager : MdbManager) (slab page : Nat) : MdbManager :=
  if (manager.pages page).freeNr = (manager.slabs slab).perSlab then
    let emptied := manager.modifySlab slab (fun s =>
      { s with partialPagesNo := s.partialPagesNo - 1 })
    let s := emptied.slabs slab
    if s.freePagesNo + s.fullPagesNo + s.partialPagesNo ≤ 1 then
      (emptied.linkPage slab page .free).modifySlab slab (fun s =>
        { s with freePagesNo := s.freePagesNo + 1 })
    else { emptied with pool := emptied.pool.freePage (emptied.pages page).id }
  else manager.linkPage slab page (.part ((manager.pages page).freeNr / partialPageBucket))

theorem freeNr_pushSlot (mdb : MdbManager) (slot : Slot) :
    ((mdb.pushSlot slot).pages slot.page).freeNr = (mdb.pages slot.page).freeNr + 1 := by
  unfold pushSlot
  rw [modifyPage_free _ slot.page (fun freeNr => freeNr + 1)]
  exact if_pos rfl

theorem framed_pushSlot (mdb : MdbManager) (slot : Slot) : Framed mdb (mdb.pushSlot slot) := by
  unfold pushSlot
  rw [modifyPage_free _ slot.page (fun freeNr => freeNr + 1), modifyItem_eq]
  refine congrArg (fun items => { mdb.frame with items }) (funext fun other => ?_)
  dsimp only
  split
  · rfl
  · rfl

/-- The steps of `free_item`. The number of free slots is read before the page is opened. -/
theorem freeItem_eq {unlinked : MdbManager}
    (isUnlinked : (mdb.modifySlab slab (fun s =>
      { s with itemTotalCount := s.itemTotalCount - 1 })).unlinkItem slab slot = unlinked)
    (count : ((unlinked.reopenPage slab slot.page).pages slot.page).freeNr =
      (unlinked.pages slot.page).freeNr) :
    mdb.freeItem slab slot =
      ((unlinked.reopenPage slab slot.page).pushSlot slot).refilePage slab slot.page := by
  unfold freeItem
  dsimp only
  rw [isUnlinked]
  have pushed : ((unlinked.reopenPage slab slot.page).modifyItem slot (fun item => { item with
        prev := 0
        next := 0
        hNext := ((unlinked.reopenPage slab slot.page).pages slot.page).freeHead })).modifyPage
      slot.page (fun info => { info with
        freeHead := ((unlinked.reopenPage slab slot.page).items slot).itemId
        freeNr := (unlinked.pages slot.page).freeNr + 1 }) =
      (unlinked.reopenPage slab slot.page).pushSlot slot := by
    unfold pushSlot modifyPage
    rw [← count]
    rfl
  have left := freeNr_pushSlot (unlinked.reopenPage slab slot.page) slot
  rw [count] at left
  unfold refilePage
  rw [left, ← pushed]
  rfl

end MdbManager

namespace Sound

theorem reopenPage (sound : Sound mdb layout held none) (owner : layout.owner page = some slab)
    (fewer : (mdb.pages page).freeNr < (mdb.slabs slab).perSlab) :
    Sound (mdb.reopenPage slab page) layout held (some page) ∧
      Moves mdb (mdb.reopenPage slab page) := by
  unfold MdbManager.reopenPage
  by_cases full : (mdb.pages page).freeNr = 0
  · rw [if_pos full]
    exact sound.openPage owner (if_pos full) Recounts.fullToPart
  · rw [if_neg full]
    have opened :=
      sound.openPage owner (homeList_part full (Nat.ne_of_lt fewer)) (Recounts.same .part)
    rwa [modifySlab_id] at opened

theorem refilePage (sound : Sound mdb layout none (some page))
    (owner : layout.owner page = some slab) (pos : 0 < (mdb.pages page).freeNr) :
    ∃ keeper, (keeper = some slab ∨ keeper = none) ∧
      Sound (mdb.refilePage slab page) (layout.reown page keeper) none none ∧
      ∀ slot, ((mdb.refilePage slab page).items slot) = mdb.items slot := by
  have same : layout.reown page (some slab) = layout := by
    unfold Layout.reown
    rw [← owner, update_eq_self]
  unfold MdbManager.refilePage
  dsimp only
  by_cases empty : (mdb.pages page).freeNr = (mdb.slabs slab).perSlab
  · rw [if_pos empty]
    split
    · obtain ⟨closed, moves⟩ :=
        sound.closePage owner (homeList_free pos empty) Recounts.partToFree
      rw [linkPage_modifySlab _ _ _ _ (fun _ => funext fun list => by cases list <;> rfl)
        (fun _ _ => rfl), modifySlab_modifySlab]
      refine ⟨some slab, Or.inl rfl, ?_, fun slot => congrFun moves.items slot⟩
      rw [same]
      exact closed
    · obtain ⟨-, -, -, -, id⟩ := sound.settled.owned page slab owner
      have released := sound.release owner empty Recounts.fromPart
      refine ⟨none, Or.inr rfl, ?_, fun slot => rfl⟩
      have isPage : ((mdb.modifySlab slab (fun s =>
        { s with partialPagesNo := s.partialPagesNo - 1 })).pages page).id = page := id
      rw [isPage]
      exact released
  · rw [if_neg empty]
    obtain ⟨closed, moves⟩ :=
      sound.closePage owner (homeList_part (Nat.ne_of_gt pos) empty) (Recounts.same .part)
    rw [modifySlab_id] at closed moves
    refine ⟨some slab, Or.inl rfl, ?_, fun slot => congrFun moves.items slot⟩
    rw [same]
    exact closed

theorem freeItem (sound : Sound mdb layout (some slot) none)
    (onList : layout.list slot = some (slab, (mdb.items slot).area))
    (unhashed : layout.chain slot = none) :
    ∃ keeper, (keeper = some slab ∨ keeper = none) ∧ Sound (mdb.freeItem slab slot)
        (((layout.relist slot none).rehash slot (some (.free slot.page))).reown slot.page keeper)
        none none ∧
      ∀ other, ((mdb.freeItem slab slot).items other).body = (mdb.items other).body := by
  have books := Alike.itemTotalCount mdb slab (· - 1)
  have booked := sound.alike books
  obtain ⟨owner, within⟩ := sound.settled.listed slot slab _ onList
  have apart := booked.items.threaded.backward.next_ne onList
  have unlinked := booked.unlinkItem (Or.inr rfl) onList
  have unlinkedFrame := books.framed.trans (Framed.unlinkItem _ slab apart)
  generalize isUnlinked : (mdb.modifySlab slab (fun s => { s with
    itemTotalCount := s.itemTotalCount - 1 })).unlinkItem slab slot = shorter at unlinked unlinkedFrame
  have inside := within
  rw [← unlinkedFrame.perSlab] at inside
  have fewer : (shorter.pages slot.page).freeNr < (shorter.slabs slab).perSlab := by
    cases lt_or_eq_of_le (unlinked.freeNr_le owner) with
    | inl fewer => exact fewer
    | inr all =>
      rw [unlinked.freeNrs slot.page slab owner] at all
      have free := TallyOn.forall_of_tallyOn_eq_card (all.trans (Finset.card_range _).symm)
        slot.offset (Finset.mem_range.mpr inside)
      cases unhashed.symm.trans free
  obtain ⟨reopened, moves⟩ := unlinked.reopenPage owner fewer
  rw [← moves.perSlab] at inside
  have pushed := reopened.give owner inside (Layout.relist_self _) unhashed
  have count := freeNr_pushSlot (shorter.reopenPage slab slot.page) slot
  obtain ⟨keeper, keeps, refiled, items⟩ :=
    pushed.refilePage owner (lt_of_lt_of_eq (Nat.succ_pos _) count.symm)
  rw [freeItem_eq isUnlinked (moves.freeNr slot.page)]
  refine ⟨keeper, keeps, refiled, ?_⟩
  intro other
  have frame := (unlinkedFrame.trans moves.framed).trans (framed_pushSlot _ slot)
  exact (congrArg MdbItem.body (items other)).trans (frame.body other)

/-! ### `__remove` -/

theorem clearFlags {opened : Option Nat} (sound : Sound mdb layout held opened) (slot : Slot) :
    Sound (mdb.modifyItem slot (fun item => { item with itemId := clearFlags item.itemId }))
      layout held opened := by
  refine sound.modifyItem slot ?_ ?_ ?_ ?_
  · intro item
    exact ⟨rfl, rfl, rfl⟩
  · intro slab size own
    exact own.clearFlags
  · intro _ _
    rfl
  · intro _
    exact ⟨rfl, rfl⟩

end Sound

theorem Alike.bookGone (mdb : MdbManager) (item : MdbItem) : Alike mdb (mdb.bookGone item) :=
  Alike.areaStat mdb _

structure Removes (manager : MdbManager) (layout : Layout) (next : MdbManager) (relaid : Layout)
    (slot : Slot) : Prop where
  sound : Sound next relaid none none
  unset : Unset next relaid
  gone : ¬ relaid.Live slot
  kept : ∀ other, layout.Live other → other ≠ slot → relaid.Live other
  list : ∀ other, other ≠ slot → relaid.list other = layout.list other
  owner : relaid.owner = layout.owner ∨
    relaid.owner = Function.update layout.owner slot.page none
  shrinks : Shrinks manager layout next relaid

namespace MdbManager

theorem items_modifyItem_of_ne (mdb : MdbManager) {slot other : Slot}
    (change : MdbItem → MdbItem) (ne : other ≠ slot) :
    (mdb.modifyItem slot change).items other = mdb.items other :=
  update_of_ne ne _ _

theorem items_modifyItem_self (mdb : MdbManager) (slot : Slot) (change : MdbItem → MdbItem) :
    (mdb.modifyItem slot change).items slot = change (mdb.items slot) :=
  update_self ..

end MdbManager

namespace Sound

theorem onList (sound : Sound mdb layout none none) (found : layout.Live slot) :
    ∃ slab, layout.list slot = some (slab, (mdb.items slot).area) ∧
      layout.owner slot.page = some slab ∧ slot.offset < (mdb.slabs slab).perSlab ∧
      slabId (mdb.items slot).itemId = slab := by
  cases onList : layout.list slot with
  | none => exact absurd onList (sound.settled.onList slot found (by simp))
  | some place =>
    obtain ⟨slab, area⟩ := place
    obtain ⟨isArea, -⟩ := sound.settled.live slot slab area onList (by simp)
    obtain ⟨owner, inside⟩ := sound.settled.listed slot slab area onList
    exact ⟨slab, by rw [isArea], owner, inside, (sound.settled.ids slot slab owner inside).slab⟩

theorem removeItem (sound : Sound mdb layout none none) (unset : Unset mdb layout)
    (found : layout.Live slot) (gone : mdb.removeItem slot = .ok next) :
    ∃ relaid, Removes mdb layout next relaid slot := by
  unfold MdbManager.removeItem at gone
  obtain ⟨unhashed, hashRemoved, isNext⟩ := ok_of_map gone
  obtain ⟨slab, onList, ofPage, -, isSlab⟩ := sound.onList found
  have books := Alike.bookGone mdb (mdb.items slot)
  obtain ⟨unchained, framed, -⟩ := (sound.alike books).remove found (Or.inl rfl) hashRemoved
  have frame := books.framed.trans framed
  have clean := unchained.clearFlags slot
  dsimp only at isNext
  generalize isCleared : unhashed.modifyItem slot (fun item =>
    { item with itemId := Mdb.clearFlags item.itemId }) = plain at clean isNext
  have own : plain.items slot = { unhashed.items slot with
      itemId := Mdb.clearFlags (unhashed.items slot).itemId } := by
    rw [← isCleared, items_modifyItem_self]
  have ofSlab : slabId (plain.items slot).itemId = slab := by
    rw [own]
    dsimp only
    rw [slabId_clearFlags, frame.itemId, isSlab]
  have ofArea : (plain.items slot).area = (mdb.items slot).area := by
    rw [own]
    exact frame.area slot
  rw [ofSlab] at isNext
  rw [← ofArea] at onList
  obtain ⟨keeper, keeps, freed, bodies⟩ := clean.freeItem onList (Layout.rehash_self _)
  generalize plain.freeItem slab slot = free at freed bodies isNext
  obtain ⟨relaid, isRelaid⟩ : ∃ relaid, (((layout.rehash slot none).relist slot none).rehash slot
    (some (.free slot.page))).reown slot.page keeper = relaid := ⟨_, rfl⟩
  have live : ∀ other, relaid.Live other ↔ layout.Live other ∧ other ≠ slot := by
    intro other
    rw [← isRelaid]
    have left : ((layout.rehash slot none).relist slot none).Live other ↔
        layout.Live other ∧ other ≠ slot := Layout.live_rehash_none
    have freedLive : (((layout.rehash slot none).relist slot none).rehash slot
        (some (.free slot.page))).Live other ↔
          ((layout.rehash slot none).relist slot none).Live other ∧ other ≠ slot :=
      Layout.live_rehash (by simp)
    exact (freedLive.trans (and_congr_left (fun _ => left))).trans (by tauto)
  have owner : relaid.owner = layout.owner ∨
      relaid.owner = update layout.owner slot.page none := by
    rw [← isRelaid]
    cases keeps with
    | inl same =>
      refine Or.inl (Eq.trans ?_ (update_eq_self slot.page layout.owner))
      rw [ofPage, ← same]
      rfl
    | inr released =>
      rw [released]
      exact Or.inr rfl
  have list : ∀ other, other ≠ slot → relaid.list other = layout.list other := by
    intro other ne
    rw [← isRelaid]
    exact Layout.relist_of_ne _ ne
  have contents : ∀ other, other ≠ slot → (next.items other).body = (mdb.items other).body := by
    intro other ne
    rw [isNext, items_modifyItem_of_ne _ _ ne, bodies, ← isCleared,
      items_modifyItem_of_ne _ _ ne, frame.body]
  rw [isRelaid] at freed
  refine ⟨relaid, ?_, ?_, ?_, ?_, list, owner, ?_⟩
  · rw [isNext]
    refine freed.modifyItem slot ?_ ?_ ?_ ?_
    · intro item
      exact ⟨rfl, rfl, rfl⟩
    · intro slab size own
      exact own
    · intro _ _
      rfl
    · intro foundHere
      exact absurd rfl ((live slot).mp foundHere).2
  · intro other off
    by_cases same : other = slot
    · have flags : (free.items slot).itemId = Mdb.clearFlags (unhashed.items slot).itemId := by
        rw [MdbItem.itemId_of_body (bodies slot), own]
      rw [same, isNext, items_modifyItem_self]
      refine ⟨rfl, ?_⟩
      dsimp only
      rw [flags, itemFlags_clearFlags]
    · rw [list other same] at off
      rw [MdbItem.unset_of_body (contents other same)]
      exact unset other off
  · intro foundHere
    exact ((live slot).mp foundHere).2 rfl
  · intro other otherFound ne
    exact (live other).mpr ⟨otherFound, ne⟩
  · intro other otherFound
    obtain ⟨before, ne⟩ := (live other).mp otherFound
    exact ⟨before, contents other ne⟩

end Sound

end Tair.Mdb
