/-
What the memory of the engine must look like. A layout says which slab owns a page, and on which
list and chain a slot is. A slot of an owned page is free, or on the list of its area and in the
hash chain of its key, and every page is on the list for the number of its free slots.

In the middle of an operation one slot may be held, of which less is known, and one page may be
opened: it counts as partly filled but is on no list.
-/

import Tair.Mdb.Chains
import Tair.Mdb.PageLists

namespace Tair.Mdb

open Tair.Library

structure Layout where
  owner : Nat → Option Nat
  list : Slot → Option (Nat × Nat)
  chain : Slot → Option ChainId

namespace Layout

def Live (layout : Layout) (slot : Slot) : Prop := ∃ bucket, layout.chain slot = some (.hash bucket)

def pagePlace (layout : Layout) (manager : MdbManager) (opened : Option Nat) (page : Nat) :
    Option (Nat × PageList) :=
  if opened = some page then none
  else (layout.owner page).map (fun slab =>
    (slab, homeList (manager.slabs slab).perSlab (manager.pages page).freeNr))

def pageKind (layout : Layout) (manager : MdbManager) (opened : Option Nat) (page : Nat) :
    Option (Nat × PageKind) :=
  (layout.owner page).map (fun slab => (slab, if opened = some page then .part
    else (homeList (manager.slabs slab).perSlab (manager.pages page).freeNr).kind))

end Layout

/-- The lengths of an item fit what is stored, and its key begins with its area. -/
def MdbItem.Keyed (item : MdbItem) : Prop := 2 ≤ item.keyLen ∧ item.keyLen ≤ item.data.length

namespace MdbItem

variable {item : MdbItem}

theorem Keyed.key_length (keyed : item.Keyed) : item.key.length = item.keyLen :=
  List.length_take_of_le keyed.2

theorem Keyed.area_eq (keyed : item.Keyed) : item.area = keyArea item.key := by
  obtain ⟨long, -⟩ := keyed
  have byte : ∀ index, index < 2 → byteAt item.key index = byteAt item.data index := by
    intro index small
    unfold byteAt key
    rw [List.getD_eq_getElem?_getD, List.getD_eq_getElem?_getD, List.getElem?_take_of_lt (by omega)]
  unfold area keyArea
  rw [byte 0 (by omega), byte 1 (by omega)]

def body (item : MdbItem) : MdbItem := { item with hNext := 0, prev := 0, next := 0 }

variable {other : MdbItem}

section

variable (same : item.body = other.body)

include same

theorem itemId_of_body : item.itemId = other.itemId := by
  have read := congrArg itemId same
  exact read

theorem key_of_body : item.key = other.key := by
  have read := congrArg key same
  exact read

theorem area_of_body : item.area = other.area := by
  have read := congrArg area same
  exact read

theorem keyed_of_body : item.Keyed ↔ other.Keyed := by
  have read := congrArg Keyed same
  exact iff_of_eq read

theorem keyLen_of_body : item.keyLen = other.keyLen := by
  have read := congrArg keyLen same
  exact read

theorem exptime_of_body : item.exptime = other.exptime := by
  have read := congrArg exptime same
  exact read

end

end MdbItem

structure Fits (manager : MdbManager) : Prop where
  totalPages : manager.pool.totalPages ≤ 2 ^ 16
  slabsCount : manager.slabsCount ≤ 2 ^ 8
  perSlab : ∀ slab, slab < manager.slabsCount →
    0 < (manager.slabs slab).perSlab ∧ (manager.slabs slab).perSlab ≤ 2 ^ 16

structure Settled (manager : MdbManager) (layout : Layout) (held : Option Slot) : Prop where
  /-- A slab's pages are in use and know their numbers. -/
  owned : ∀ page slab, layout.owner page = some slab → slab < manager.slabsCount ∧ 0 < page ∧
    page < manager.pool.totalPages ∧ manager.pool.pageBitmap page = true ∧
    (manager.pages page).id = page
  ids : ∀ slot slab, layout.owner slot.page = some slab →
    slot.offset < (manager.slabs slab).perSlab →
    IdOf slab ((manager.slabs slab).slabSize % 2 ^ 20) slot (manager.items slot).itemId
  /-- Listed slots are slots of their slab. -/
  listed : ∀ slot slab area, layout.list slot = some (slab, area) →
    layout.owner slot.page = some slab ∧ slot.offset < (manager.slabs slab).perSlab
  /-- They hold items of their area. -/
  live : ∀ slot slab area, layout.list slot = some (slab, area) → held ≠ some slot →
    area = (manager.items slot).area ∧ layout.Live slot
  onList : ∀ slot, layout.Live slot → held ≠ some slot → layout.list slot ≠ none
  hashed : ∀ slot bucket, layout.chain slot = some (.hash bucket) →
    (manager.items slot).Keyed ∧ bucket = manager.getBucketIndex (manager.items slot).key
  distinct : ∀ slot other, layout.Live slot → layout.Live other →
    (manager.items slot).key = (manager.items other).key → slot = other
  freed : ∀ slot page, layout.chain slot = some (.free page) → slot.page = page ∧
    layout.list slot = none ∧
    ∀ slab, layout.owner page = some slab → slot.offset < (manager.slabs slab).perSlab
  /-- A slot of a slab that is on no list is free. -/
  kept : ∀ slot slab, layout.owner slot.page = some slab →
    slot.offset < (manager.slabs slab).perSlab → layout.list slot = none → held ≠ some slot →
    layout.chain slot = some (.free slot.page)

structure Sound (manager : MdbManager) (layout : Layout) (held : Option Slot)
    (opened : Option Nat) : Prop where
  fits : Fits manager
  settled : Settled manager layout held
  items : ItemLists manager layout.list
  chains : Chains manager layout.chain
  pages : PageLists manager (layout.pagePlace manager opened)
  counts : PageCounts manager (layout.pageKind manager opened)
  freeNrs : ∀ page slab, layout.owner page = some slab → (manager.pages page).freeNr =
    tallyOn (Finset.range (manager.slabs slab).perSlab) (fun offset => layout.chain ⟨page, offset⟩)
      (some (.free page))
  blank : ∀ slot, layout.list slot = none → held ≠ some slot →
    (manager.items slot).prev = 0 ∧ (manager.items slot).next = 0
  counted : ∃ found : Finset Slot, (∀ slot, slot ∈ found ↔ layout.Live slot) ∧
    manager.itemCount = found.card

/-! ### Changes that do not matter -/

theorem Layout.places_congr {layout relaid : Layout} {mdb next : MdbManager} {opened : Option Nat}
    (owner : relaid.owner = layout.owner)
    (same : ∀ page slab, layout.owner page = some slab → opened ≠ some page →
      (next.slabs slab).perSlab = (mdb.slabs slab).perSlab ∧
        (next.pages page).freeNr = (mdb.pages page).freeNr) :
    relaid.pagePlace next opened = layout.pagePlace mdb opened ∧
      relaid.pageKind next opened = layout.pageKind mdb opened := by
  have places : ∀ page, relaid.pagePlace next opened page = layout.pagePlace mdb opened page ∧
      relaid.pageKind next opened page = layout.pageKind mdb opened page := by
    intro page
    unfold pagePlace pageKind
    rw [owner]
    cases owned : layout.owner page with
    | none => exact ⟨rfl, rfl⟩
    | some slab =>
      by_cases isOpen : opened = some page
      · simp only [if_pos isOpen, Option.map_some, and_self]
      · obtain ⟨perSlab, freeNr⟩ := same page slab owned isOpen
        simp only [perSlab, freeNr, Option.map_some, and_self]
  exact ⟨funext fun page => (places page).1, funext fun page => (places page).2⟩

namespace SlabManager

variable (slab : SlabManager)

def bare : SlabManager :=
  { slab with itemCount := fun _ => 0, itemTotalCount := 0, evictTotalCount := 0, evictIndex := 0 }

def uncounted : SlabManager :=
  { slab.bare with fullPagesNo := 0, partialPagesNo := 0, freePagesNo := 0 }

def still : SlabManager :=
  { slab.uncounted with freePages := 0, fullPages := 0, partialPages := fun _ => 0 }

def frame : SlabManager := { slab.still with itemList := fun _ => default }

end SlabManager

namespace MdbManager

variable (manager : MdbManager)

/-- The memory without the books. -/
def bare : MdbManager :=
  { manager with slabs := fun slab => (manager.slabs slab).bare, areaStat := fun _ => default }

/-- Also without the lists and the numbers of pages. -/
def still : MdbManager :=
  { manager.bare with
    pages := fun page => { manager.pages page with next := 0, prev := 0 }
    slabs := fun slab => (manager.slabs slab).still }

/-- Without any links and counters. -/
def frame : MdbManager :=
  { manager.still with
    pool := { manager.pool with freePages := 0, currentPage := 0 }
    pages := fun page => ⟨(manager.pages page).id, 0, 0, 0, 0⟩
    items := fun slot => (manager.items slot).body
    slabs := fun slab => (manager.slabs slab).frame
    hashtable := fun _ => 0
    itemCount := 0 }

end MdbManager

/-- Two memories that differ in nothing but links and counters. -/
def Framed (manager next : MdbManager) : Prop := next.frame = manager.frame

namespace Framed

variable {mdb middle next : MdbManager} {layout : Layout} {held : Option Slot}

theorem trans (first : Framed mdb middle) (second : Framed middle next) : Framed mdb next :=
  Eq.trans second first

section

variable (framed : Framed mdb next)

include framed

theorem totalPages : next.pool.totalPages = mdb.pool.totalPages :=
  congrArg (·.pool.totalPages) framed

theorem pageBitmap : next.pool.pageBitmap = mdb.pool.pageBitmap :=
  congrArg (·.pool.pageBitmap) framed

theorem slabsCount : next.slabsCount = mdb.slabsCount :=
  congrArg (·.slabsCount) framed

theorem bucketSize : next.bucketSize = mdb.bucketSize :=
  congrArg (·.bucketSize) framed

theorem slabSize (slab : Nat) : (next.slabs slab).slabSize = (mdb.slabs slab).slabSize :=
  congrArg (fun manager => (manager.slabs slab).slabSize) framed

theorem perSlab (slab : Nat) : (next.slabs slab).perSlab = (mdb.slabs slab).perSlab :=
  congrArg (fun manager => (manager.slabs slab).perSlab) framed

theorem id (page : Nat) : (next.pages page).id = (mdb.pages page).id :=
  congrArg (fun manager => (manager.pages page).id) framed

variable (slot : Slot)

theorem body : (next.items slot).body = (mdb.items slot).body :=
  congrArg (·.items slot) framed

theorem itemId : (next.items slot).itemId = (mdb.items slot).itemId :=
  MdbItem.itemId_of_body (framed.body slot)

theorem keyed : (next.items slot).Keyed ↔ (mdb.items slot).Keyed :=
  MdbItem.keyed_of_body (framed.body slot)

theorem key : (next.items slot).key = (mdb.items slot).key :=
  MdbItem.key_of_body (framed.body slot)

theorem area : (next.items slot).area = (mdb.items slot).area :=
  MdbItem.area_of_body (framed.body slot)

theorem getBucketIndex : next.getBucketIndex = mdb.getBucketIndex := by
  funext key
  unfold MdbManager.getBucketIndex
  rw [framed.bucketSize]

theorem fits (fits : Fits mdb) : Fits next := by
  refine ⟨?_, ?_, ?_⟩
  · rw [framed.totalPages]
    exact fits.totalPages
  · rw [framed.slabsCount]
    exact fits.slabsCount
  · intro slab inside
    rw [framed.perSlab]
    rw [framed.slabsCount] at inside
    exact fits.perSlab slab inside

theorem settled (settled : Settled mdb layout held) : Settled next layout held := by
  refine ⟨?_, ?_, ?_, ?_, settled.onList, ?_, ?_, ?_, ?_⟩
  · simp only [framed.slabsCount, framed.totalPages, framed.pageBitmap, framed.id]
    exact settled.owned
  · simp only [framed.perSlab, framed.slabSize, framed.itemId]
    exact settled.ids
  · simp only [framed.perSlab]
    exact settled.listed
  · simp only [framed.area]
    exact settled.live
  · simp only [framed.keyed, framed.key, framed.getBucketIndex]
    exact settled.hashed
  · simp only [framed.key]
    exact settled.distinct
  · simp only [framed.perSlab]
    exact settled.freed
  · simp only [framed.perSlab]
    exact settled.kept

end

end Framed

/-- Two memories that differ in nothing but the lists and the counters of pages. -/
def Moves (manager next : MdbManager) : Prop := next.still = manager.still

namespace Moves

variable {mdb middle next : MdbManager}

theorem trans (first : Moves mdb middle) (second : Moves middle next) : Moves mdb next :=
  Eq.trans second first

section

variable (moves : Moves mdb next)

include moves

theorem framed : Framed mdb next :=
  show next.still.frame = mdb.still.frame from congrArg MdbManager.frame moves

theorem pool : next.pool = mdb.pool := congrArg (·.pool) moves

theorem items : next.items = mdb.items := congrArg (·.items) moves

theorem perSlab (slab : Nat) : (next.slabs slab).perSlab = (mdb.slabs slab).perSlab :=
  moves.framed.perSlab slab

theorem slabSize (slab : Nat) : (next.slabs slab).slabSize = (mdb.slabs slab).slabSize :=
  moves.framed.slabSize slab

theorem itemList (slab : Nat) : (next.slabs slab).itemList = (mdb.slabs slab).itemList :=
  congrArg (fun manager => (manager.slabs slab).itemList) moves

theorem freeNr (page : Nat) : (next.pages page).freeNr = (mdb.pages page).freeNr :=
  congrArg (fun manager => (manager.pages page).freeNr) moves

theorem freeHead (page : Nat) : (next.pages page).freeHead = (mdb.pages page).freeHead :=
  congrArg (fun manager => (manager.pages page).freeHead) moves

end

theorem sound {layout : Layout} {held : Option Slot} {opened openedNext : Option Nat}
    (moves : Moves mdb next) (sound : Sound mdb layout held opened)
    (pages : PageLists next (layout.pagePlace mdb openedNext))
    (counts : PageCounts next (layout.pageKind mdb openedNext)) :
    Sound next layout held openedNext := by
  obtain ⟨place, kind⟩ : layout.pagePlace next openedNext = _ ∧ layout.pageKind next _ = _ :=
    Layout.places_congr rfl (fun page slab _ _ => ⟨moves.perSlab slab, moves.freeNr page⟩)
  refine ⟨moves.framed.fits sound.fits, moves.framed.settled sound.settled, ?_, ?_, ?_, ?_, ?_, ?_,
    ?_⟩
  · apply sound.items.congr _ moves.itemList moves.slabSize
    intro slot placed
    rw [moves.items]
    exact ⟨rfl, rfl⟩
  · apply sound.chains.congr _ (congrArg (·.hashtable) moves) moves.freeHead
    intro slot placed
    rw [moves.items]
  · rw [place]
    exact pages
  · rw [kind]
    exact counts
  · simp only [moves.perSlab, moves.freeNr]
    exact sound.freeNrs
  · rw [moves.items]
    exact sound.blank
  · rw [show next.itemCount = mdb.itemCount from congrArg (·.itemCount) moves]
    exact sound.counted

end Moves

/-- Two memories that differ in nothing but the books. -/
def Alike (manager next : MdbManager) : Prop := next.bare = manager.bare

theorem Alike.areaStat (mdb : MdbManager) (stats : Nat → AreaStat) :
    Alike mdb { mdb with areaStat := stats } := rfl

theorem Alike.moves {mdb next : MdbManager} (alike : Alike mdb next) : Moves mdb next :=
  show next.bare.still = mdb.bare.still from congrArg MdbManager.still alike

theorem Alike.framed {mdb next : MdbManager} (alike : Alike mdb next) : Framed mdb next :=
  alike.moves.framed

namespace Sound

variable {mdb next : MdbManager} {layout : Layout} {held : Option Slot} {opened : Option Nat}
  {slot : Slot}

theorem alike (sound : Sound mdb layout held opened) (alike : Alike mdb next) :
    Sound next layout held opened := by
  refine alike.moves.sound sound (sound.pages.congr ?_ ?_)
    (sound.counts.congr alike.framed.totalPages ?_)
  · rw [show next.pages = mdb.pages from congrArg (·.pages) alike]
    exact fun _ _ => ⟨rfl, rfl⟩
  · exact fun slab => congrArg (fun manager => (manager.slabs slab).pageHead) alike
  · exact fun slab => congrArg (fun manager => (manager.slabs slab).pagesNo) alike

/-- Contents are written into items. The links stay, ids keep what links follow, and no
key is changed where it can be found. -/
theorem rewrite {items : Slot → MdbItem} (sound : Sound mdb layout held opened)
    (links : ∀ slot, (items slot).hNext = (mdb.items slot).hNext ∧
      (items slot).prev = (mdb.items slot).prev ∧
      (items slot).next = (mdb.items slot).next)
    (ids : ∀ slot slab size, IdOf slab size slot (mdb.items slot).itemId →
      IdOf slab size slot (items slot).itemId)
    (areas : ∀ slot, layout.list slot ≠ none → held ≠ some slot →
      (items slot).area = (mdb.items slot).area)
    (keys : ∀ slot, layout.Live slot → (items slot).keyLen = (mdb.items slot).keyLen ∧
      (items slot).data = (mdb.items slot).data) : Sound { mdb with items } layout held opened := by
  have key : ∀ slot, layout.Live slot → (items slot).key = (mdb.items slot).key := by
    intro slot found
    unfold MdbItem.key
    rw [(keys slot found).1, (keys slot found).2]
  have settled := sound.settled
  refine ⟨{ sound.fits with },
    ⟨settled.owned, ?_, settled.listed, ?_, settled.onList, ?_, ?_, settled.freed, settled.kept⟩,
    ?_, ?_, ?_, ?_, sound.freeNrs, ?_, sound.counted⟩
  · intro slot slab owner inside
    exact ids slot slab _ (settled.ids slot slab owner inside)
  · intro slot slab area placed unheld
    obtain ⟨same, found⟩ := settled.live slot slab area placed unheld
    rw [areas slot (by rw [placed]; exact Option.some_ne_none _) unheld]
    exact ⟨same, found⟩
  · intro slot bucket placed
    obtain ⟨keyed, index⟩ := settled.hashed slot bucket placed
    have found : layout.Live slot := ⟨bucket, placed⟩
    refine ⟨?_, ?_⟩
    · unfold MdbItem.Keyed
      rw [(keys slot found).1, (keys slot found).2]
      exact keyed
    · dsimp only
      rw [key slot found]
      exact index
  · intro slot other found otherFound same
    apply settled.distinct slot other found otherFound
    rw [← key slot found, ← key other otherFound]
    exact same
  · apply sound.items.congr
    · intro slot placed
      exact ⟨(links slot).2.2, (links slot).2.1⟩
    · intro slab
      rfl
    · intro slab
      rfl
  · apply sound.chains.congr
    · intro slot placed
      exact (links slot).1
    · rfl
    · intro page
      rfl
  · exact sound.pages.congr (fun _ _ => ⟨rfl, rfl⟩) (fun _ => rfl)
  · exact sound.counts.congr rfl (fun _ => rfl)
  · intro slot off unheld
    rw [(links slot).2.1, (links slot).2.2]
    exact sound.blank slot off unheld

end Sound

end Tair.Mdb
