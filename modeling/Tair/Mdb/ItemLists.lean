/-
The lists of items. Every slab keeps one list for every area. Linking and unlinking change the
place of one item and nothing else that other parts of the memory depend on.
-/

import Tair.Library.Links
import Tair.Mdb.MemCache

namespace Tair.Mdb

open MdbManager Function Tair.Library

namespace MdbManager

variable (manager : MdbManager)

def itemNext (slot : Slot) : Option Slot := link (manager.items slot).next

def itemPrev (slot : Slot) : Option Slot := link (manager.items slot).prev

def listHead (list : Nat × Nat) : Option Slot :=
  link ((manager.slabs list.1).itemList list.2).itemHead

def listTail (list : Nat × Nat) : Option Slot :=
  link ((manager.slabs list.1).itemList list.2).itemTail

end MdbManager

structure IdOf (slab size : Nat) (slot : Slot) (id : Nat) : Prop where
  nonzero : id ≠ 0
  page : slot.page ≠ 0
  slot : slotOf id = slot
  slab : slabId id = slab
  size : slabSize id = size

namespace IdOf

variable {slab size id : Nat} {slot : Slot}

section

variable (own : IdOf slab size slot id)

include own

theorem ofSlab : OfSlab slab size id :=
  fun _ => ⟨own.slab, own.size⟩

theorem link_eq : link id = some slot := by
  rw [link_of_ne own.nonzero, own.slot]

theorem equal_iff {other : Nat} (ofSlab : OfSlab slab size other) :
    itemIdEqual id other = true ↔ link other = some slot := by
  have page : pageId id ≠ 0 := by
    have same : pageId id = slot.page := congrArg Slot.page own.slot
    rw [same]
    exact own.page
  rw [itemIdEqual_iff own.ofSlab ofSlab own.nonzero page, own.slot]

theorem clearFlags : IdOf slab size slot (clearFlags id) := by
  have same := own.slot
  refine ⟨?_, own.page, ?_, ?_, ?_⟩
  · intro zero
    have page : pageId id = 0 := by
      have kept := slotOf_clearFlags id
      rw [zero] at kept
      exact (congrArg Slot.page kept).symm
    exact own.page ((congrArg Slot.page same).symm.trans page)
  · rw [slotOf_clearFlags, same]
  · rw [slabId_clearFlags, own.slab]
  · rw [slabSize_clearFlags, own.size]

theorem setItemFlags (value : Nat) : IdOf slab size slot (setItemFlags id value) := by
  have same := own.slot
  refine ⟨?_, own.page, ?_, ?_, ?_⟩
  · intro zero
    have page : pageId id = 0 := by
      have kept := slotOf_setItemFlags id value
      rw [zero] at kept
      exact (congrArg Slot.page kept).symm
    exact own.page ((congrArg Slot.page same).symm.trans page)
  · rw [slotOf_setItemFlags, same]
  · rw [slabId_setItemFlags, own.slab]
  · rw [slabSize_setItemFlags, own.size]

end

end IdOf

/-- The items that are on lists are on the right ones, and all links of a slab's lists
are ids of that slab. -/
structure ItemLists (manager : MdbManager) (place : Slot → Option (Nat × Nat)) : Prop where
  threaded : Threaded manager.itemPrev manager.itemNext manager.listHead manager.listTail place
  heads : ∀ slab area, OfSlab slab ((manager.slabs slab).slabSize % 2 ^ 20)
    ((manager.slabs slab).itemList area).itemHead
  tails : ∀ slab area, OfSlab slab ((manager.slabs slab).slabSize % 2 ^ 20)
    ((manager.slabs slab).itemList area).itemTail
  nexts : ∀ slot slab area, place slot = some (slab, area) →
    OfSlab slab ((manager.slabs slab).slabSize % 2 ^ 20) (manager.items slot).next
  prevs : ∀ slot slab area, place slot = some (slab, area) →
    OfSlab slab ((manager.slabs slab).slabSize % 2 ^ 20) (manager.items slot).prev

namespace MdbManager

theorem modifyItem_eq (mdb : MdbManager) (slot : Slot) (change : MdbItem → MdbItem) :
    mdb.modifyItem slot change = { mdb with
      items := fun other => if slot = other then change (mdb.items other)
        else mdb.items other } := by
  unfold modifyItem
  congr 1
  funext other
  by_cases same : slot = other
  · rw [same, update_self, if_pos rfl]
  · rw [update_of_ne (Ne.symm same), if_neg same]

theorem modifyLinked_eq (mdb : MdbManager) (id : Nat) (change : MdbItem → MdbItem) :
    mdb.modifyLinked id change = { mdb with
      items := fun other => if link id = some other then change (mdb.items other)
        else mdb.items other } := by
  unfold modifyLinked
  by_cases zero : id = 0
  · rw [if_pos zero, zero, link_zero]
    rfl
  · rw [if_neg zero, modifyItem_eq, link_of_ne zero]
    simp only [Option.some.injEq]

theorem setItemList_eq (mdb : MdbManager) (slab area : Nat) (list : ItemList) :
    mdb.setItemList slab area list = { mdb with
      slabs := fun other => { mdb.slabs other with
        itemList := fun a => if (slab, area) = (other, a) then list
          else (mdb.slabs other).itemList a } } := by
  unfold setItemList modifySlab
  congr 1
  funext other
  by_cases same : slab = other
  · subst same
    rw [update_self]
    dsimp only
    congr 1
    funext a
    by_cases own : area = a
    · subst own
      rw [update_self, if_pos rfl]
    · rw [update_of_ne (Ne.symm own), if_neg (fun pair => own (congrArg Prod.snd pair))]
  · rw [update_of_ne (Ne.symm same)]
    simp only [Prod.mk.injEq, same, false_and, if_false]

variable (mdb : MdbManager) (slab : Nat) (slot : Slot) (area : Nat)

/-! ### Linking, all at once -/

def frontedList : ItemList :=
  let list := (mdb.slabs slab).itemList area
  let id := (mdb.items slot).itemId
  ⟨id, if list.itemTail = 0 then id else list.itemTail⟩

theorem linkItem_eq : mdb.linkItem slab slot area = { mdb with
    items := fun other =>
      { mdb.items other with
        next := if slot = other then ((mdb.slabs slab).itemList area).itemHead
          else (mdb.items other).next
        prev := if mdb.listHead (slab, area) = some other then (mdb.items slot).itemId
          else if slot = other then 0 else (mdb.items other).prev }
    slabs := fun other => { mdb.slabs other with
      itemList := fun a => if (slab, area) = (other, a) then mdb.frontedList slab slot area
        else (mdb.slabs other).itemList a } } := by
  have opened : mdb.linkItem slab slot area =
      ((mdb.modifyItem slot _).modifyLinked _ _).setItemList slab area
        (mdb.frontedList slab slot area) := rfl
  rw [opened, modifyItem_eq, modifyLinked_eq, setItemList_eq]
  congr 1
  funext other
  unfold listHead
  by_cases first : link ((mdb.slabs slab).itemList area).itemHead = some other
  · by_cases same : slot = other
    · simp only [if_pos first, if_pos same]
    · simp only [if_pos first, if_neg same]
  · by_cases same : slot = other
    · simp only [if_neg first, if_pos same]
    · simp only [if_neg first, if_neg same]

def shortenedList : ItemList :=
  let item := mdb.items slot
  let list := (mdb.slabs slab).itemList item.area
  ⟨if itemIdEqual item.itemId list.itemHead then item.next else list.itemHead,
    if itemIdEqual item.itemId list.itemTail then item.prev else list.itemTail⟩

theorem unlinkItem_eq (apart : mdb.itemPrev slot ≠ some slot) :
    mdb.unlinkItem slab slot = { mdb with
      items := fun other =>
        { mdb.items other with
          next := if mdb.itemPrev slot = some other then (mdb.items slot).next
            else (mdb.items other).next
          prev := if mdb.itemNext slot = some other then (mdb.items slot).prev
            else (mdb.items other).prev }
      slabs := fun other => { mdb.slabs other with
        itemList := fun a => if (slab, (mdb.items slot).area) = (other, a) then
            mdb.shortenedList slab slot
          else (mdb.slabs other).itemList a } } := by
  have apart : ¬ link (mdb.items slot).prev = some slot := apart
  unfold unlinkItem
  simp only [modifyLinked_eq, setItemList_eq, if_neg apart]
  congr 1
  funext other
  unfold itemPrev itemNext
  by_cases before : link (mdb.items slot).prev = some other
  · by_cases behind : link (mdb.items slot).next = some other
    · simp only [if_pos before, if_pos behind]
    · simp only [if_pos before, if_neg behind]
  · by_cases behind : link (mdb.items slot).next = some other
    · simp only [if_neg before, if_pos behind]
    · simp only [if_neg before, if_neg behind]

theorem listHead_linkItem (list : Nat × Nat) :
    (mdb.linkItem slab slot area).listHead list =
      if (slab, area) = list then link (mdb.items slot).itemId else mdb.listHead list := by
  rw [linkItem_eq]
  unfold listHead
  dsimp only
  by_cases own : (slab, area) = list
  · rw [if_pos own, if_pos own]
    rfl
  · rw [if_neg own, if_neg own]

theorem listTail_linkItem (list : Nat × Nat) :
    (mdb.linkItem slab slot area).listTail list =
      if (slab, area) = list then
        if mdb.listTail list = none then link (mdb.items slot).itemId
        else mdb.listTail list
      else mdb.listTail list := by
  rw [linkItem_eq]
  unfold listTail
  dsimp only
  by_cases own : (slab, area) = list
  · subst own
    rw [if_pos rfl, if_pos rfl]
    unfold frontedList
    dsimp only
    by_cases empty : ((mdb.slabs slab).itemList area).itemTail = 0
    · rw [if_pos empty, if_pos (link_eq_none.mpr empty)]
    · rw [if_neg empty, if_neg (fun none => empty (link_eq_none.mp none))]
  · rw [if_neg own, if_neg own]

theorem itemNext_linkItem (other : Slot) :
    (mdb.linkItem slab slot area).itemNext other =
      if slot = other then mdb.listHead (slab, area) else mdb.itemNext other := by
  rw [linkItem_eq]
  unfold itemNext listHead
  dsimp only
  by_cases same : slot = other
  · rw [if_pos same, if_pos same]
  · rw [if_neg same, if_neg same]

theorem itemPrev_linkItem (other : Slot) :
    (mdb.linkItem slab slot area).itemPrev other =
      if mdb.listHead (slab, area) = some other then link (mdb.items slot).itemId
      else if slot = other then none else mdb.itemPrev other := by
  rw [linkItem_eq]
  unfold itemPrev
  dsimp only
  by_cases first : mdb.listHead (slab, area) = some other
  · rw [if_pos first, if_pos first]
  · rw [if_neg first, if_neg first]
    by_cases same : slot = other
    · rw [if_pos same, if_pos same, link_zero]
    · rw [if_neg same, if_neg same]

end MdbManager

/-! ### Linking keeps the lists -/

namespace ItemLists

variable {mdb next : MdbManager} {place : Slot → Option (Nat × Nat)} {slab area : Nat}
  {slot : Slot}

theorem congr (lists : ItemLists mdb place)
    (links : ∀ slot, place slot ≠ none → (next.items slot).next = (mdb.items slot).next ∧
      (next.items slot).prev = (mdb.items slot).prev)
    (ends : ∀ slab, (next.slabs slab).itemList = (mdb.slabs slab).itemList)
    (sizes : ∀ slab, (next.slabs slab).slabSize = (mdb.slabs slab).slabSize) :
    ItemLists next place := by
  have same : ∀ slot list, place slot = some list →
      (next.items slot).next = (mdb.items slot).next ∧
        (next.items slot).prev = (mdb.items slot).prev := by
    intro slot list placed
    apply links
    rw [placed]
    exact Option.some_ne_none list
  refine ⟨lists.threaded.congr ?_ ?_ ?_ ?_ (fun _ => rfl), ?_, ?_, ?_, ?_⟩
  · intro slot list placed
    exact congrArg link (same slot list placed).1
  · intro slot list placed
    exact congrArg link (same slot list placed).2
  · intro list
    unfold listHead
    rw [ends]
  · intro list
    unfold listTail
    rw [ends]
  · intro slab area
    rw [ends, sizes]
    exact lists.heads slab area
  · intro slab area
    rw [ends, sizes]
    exact lists.tails slab area
  · intro slot slab area placed
    rw [(same slot _ placed).1, sizes]
    exact lists.nexts slot slab area placed
  · intro slot slab area placed
    rw [(same slot _ placed).2, sizes]
    exact lists.prevs slot slab area placed

section

variable (lists : ItemLists mdb place)
  (own : IdOf slab ((mdb.slabs slab).slabSize % 2 ^ 20) slot (mdb.items slot).itemId)

include lists own

theorem linkItem (notIn : place slot = none) :
    ItemLists (mdb.linkItem slab slot area) (update place slot (some (slab, area))) := by
  have notHead : mdb.listHead (slab, area) ≠ some slot := by
    intro starts
    rw [lists.threaded.forward.place_first starts] at notIn
    cases notIn
  have head : (mdb.linkItem slab slot area).listHead (slab, area) = some slot := by
    rw [listHead_linkItem, if_pos rfl, own.link_eq]
  refine ⟨lists.threaded.push _ notIn head ?_ ?_ ?_ ?_ ?_ ?_ ?_, ?_, ?_, ?_, ?_⟩
  · intro list other
    rw [listHead_linkItem, if_neg (Ne.symm other)]
  · rw [listTail_linkItem, if_pos rfl, own.link_eq]
  · intro list other
    rw [listTail_linkItem, if_neg (Ne.symm other)]
  · rw [itemNext_linkItem, if_pos rfl]
  · rw [itemPrev_linkItem, if_neg notHead, if_pos rfl]
  · intro other ne
    rw [itemNext_linkItem, if_neg (Ne.symm ne)]
  · intro other ne
    rw [itemPrev_linkItem, own.link_eq, if_neg (Ne.symm ne)]
  · intro ofSlab ofArea
    rw [linkItem_eq]
    dsimp only
    split
    · cases ‹(slab, area) = (ofSlab, ofArea)›
      exact own.ofSlab
    · exact lists.heads ofSlab ofArea
  · intro ofSlab ofArea
    rw [linkItem_eq]
    dsimp only
    split
    · cases ‹(slab, area) = (ofSlab, ofArea)›
      unfold frontedList
      dsimp only
      split
      · exact own.ofSlab
      · exact lists.tails slab area
    · exact lists.tails ofSlab ofArea
  · intro other ofSlab ofArea placed
    rw [linkItem_eq]
    dsimp only
    split
    · rename_i same
      rw [← same, update_self] at placed
      cases placed
      exact lists.heads slab area
    · rename_i ne
      rw [update_of_ne (Ne.symm ne)] at placed
      exact lists.nexts other ofSlab ofArea placed
  · intro other ofSlab ofArea placed
    rw [linkItem_eq]
    dsimp only
    split
    · rename_i starts
      have there := lists.threaded.forward.place_first starts
      have ne : other ≠ slot := by
        intro same
        rw [same] at starts
        exact notHead starts
      rw [update_of_ne ne, there] at placed
      cases placed
      exact own.ofSlab
    · split
      · intro real
        exact absurd rfl real
      · rename_i ne
        rw [update_of_ne (Ne.symm ne)] at placed
        exact lists.prevs other ofSlab ofArea placed

theorem ends_unlinkItem : let index := (slab, (mdb.items slot).area)
    link (mdb.shortenedList slab slot).itemHead =
        (if mdb.listHead index = some slot then mdb.itemNext slot
          else mdb.listHead index) ∧
      link (mdb.shortenedList slab slot).itemTail =
        (if mdb.listTail index = some slot then mdb.itemPrev slot
          else mdb.listTail index) := by
  have head := own.equal_iff (lists.heads slab (mdb.items slot).area)
  have tail := own.equal_iff (lists.tails slab (mdb.items slot).area)
  unfold shortenedList listHead listTail itemNext itemPrev
  dsimp only
  constructor
  · by_cases first : link ((mdb.slabs slab).itemList (mdb.items slot).area).itemHead =
        some slot
    · rw [if_pos first, if_pos (head.mpr first)]
    · rw [if_neg first, if_neg (fun equal => first (head.mp equal))]
  · by_cases last : link ((mdb.slabs slab).itemList (mdb.items slot).area).itemTail =
        some slot
    · rw [if_pos last, if_pos (tail.mpr last)]
    · rw [if_neg last, if_neg (fun equal => last (tail.mp equal))]

theorem unlinkItem (placed : place slot = some (slab, (mdb.items slot).area)) :
    ItemLists (mdb.unlinkItem slab slot) (update place slot none) := by
  obtain ⟨head, tail⟩ := lists.ends_unlinkItem own
  rw [unlinkItem_eq _ _ _ (lists.threaded.backward.next_ne placed)]
  refine ⟨lists.threaded.remove placed ?_ ?_ ?_ ?_ ?_ ?_, ?_, ?_, ?_, ?_⟩
  · unfold listHead
    dsimp only
    rw [if_pos rfl]
    exact head
  · intro list other
    unfold listHead
    dsimp only
    rw [if_neg (Ne.symm other)]
  · unfold listTail
    dsimp only
    rw [if_pos rfl]
    exact tail
  · intro list other
    unfold listTail
    dsimp only
    rw [if_neg (Ne.symm other)]
  · intro other ne
    conv_lhs => unfold itemNext
    exact apply_ite link _ _ _
  · intro other ne
    conv_lhs => unfold itemPrev
    exact apply_ite link _ _ _
  · intro ofSlab ofArea
    dsimp only
    split
    · cases ‹(slab, (mdb.items slot).area) = (ofSlab, ofArea)›
      unfold shortenedList
      dsimp only
      split
      · exact lists.nexts slot slab _ placed
      · exact lists.heads slab _
    · exact lists.heads ofSlab ofArea
  · intro ofSlab ofArea
    dsimp only
    split
    · cases ‹(slab, (mdb.items slot).area) = (ofSlab, ofArea)›
      unfold shortenedList
      dsimp only
      split
      · exact lists.prevs slot slab _ placed
      · exact lists.tails slab _
    · exact lists.tails ofSlab ofArea
  · intro other ofSlab ofArea there
    dsimp only
    by_cases same : other = slot
    · rw [same, update_self] at there
      cases there
    · rw [update_of_ne same] at there
      split
      · have leads := lists.threaded.backward.place_next placed ‹_›
        cases leads.symm.trans there
        exact lists.nexts slot slab _ placed
      · exact lists.nexts other ofSlab ofArea there
  · intro other ofSlab ofArea there
    dsimp only
    by_cases same : other = slot
    · rw [same, update_self] at there
      cases there
    · rw [update_of_ne same] at there
      split
      · have leads := lists.threaded.forward.place_next placed ‹_›
        cases leads.symm.trans there
        exact lists.prevs slot slab _ placed
      · exact lists.prevs other ofSlab ofArea there

end

end ItemLists

end Tair.Mdb
