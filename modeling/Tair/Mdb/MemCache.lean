/-
Slabs at work: slots are taken from partly filled, empty or new pages, or from items
that are evicted; freed slots go back to their page and empty pages to the pool. The
hash table finds items by key.
-/

import Tair.Common.Hash
import Tair.Mdb.Memory

namespace Tair.Mdb

open Tair.Common

inductive AllocType where
  | allocNew
  | expired
  | evictSelf
  | evictAny
deriving DecidableEq, Repr

/-- There are as many places for items as pages and offsets that fit into an id. A walk
that is longer never ends. -/
def walkLimit : Nat := 2 ^ 32 + 1

namespace MdbManager

/-! ### Taking and giving back slots -/

variable (manager : MdbManager)

def initPage (slab index : Nat) : MdbManager :=
  let s := manager.slabs slab
  { manager with
    pages := Function.update manager.pages index
      ⟨index, s.perSlab, 0, 0, itemId s.slabSize 0 index slab⟩
    items := fun slot =>
      if slot.page = index then
        if slot.offset < s.perSlab then
          { (default : MdbItem) with
            itemId := itemId s.slabSize slot.offset index slab
            hNext := if slot.offset + 1 < s.perSlab then
              itemId s.slabSize (slot.offset + 1) index slab else 0 }
        else default
      else manager.items slot }

/-- The first free slot of a page that is on no list is taken for an area, and the page
goes to the list for the slots that remain. -/
def takeSlot (slab page area : Nat) : MdbManager × Slot :=
  let slot := slotOf (manager.pages page).freeHead
  let freeNr := (manager.pages page).freeNr - 1
  let counted := manager.modifyPage page (fun info => { info with freeNr })
  let listed :=
    if freeNr = 0 then
      (counted.linkPage slab page .full).modifySlab slab (fun s =>
        { s with fullPagesNo := s.fullPagesNo + 1, partialPagesNo := s.partialPagesNo - 1 })
    else counted.linkPage slab page (.part (freeNr / partialPageBucket))
  let totalled := listed.modifySlab slab (fun s =>
    { s with itemTotalCount := s.itemTotalCount + 1 })
  let popped := totalled.modifyPage page (fun info =>
    { info with freeHead := (totalled.items slot).hNext })
  (popped.linkItem slab slot area, slot)

def allocNewItem (slab area : Nat) : Except Fault (MdbManager × Option Slot) :=
  let s := manager.slabs slab
  if 0 < s.partialPagesNo then
    let page := s.getPartialPageId
    let list := PageList.part ((manager.pages page).freeNr / partialPageBucket)
    let (taken, slot) := (manager.unlinkPage slab page list).takeSlot slab page area
    .ok (taken, some slot)
  else if 0 < s.freePagesNo then
    let page := s.freePages
    let opened := (manager.unlinkPage slab page .free).modifySlab slab (fun s =>
      { s with freePagesNo := s.freePagesNo - 1, partialPagesNo := s.partialPagesNo + 1 })
    let (taken, slot) := opened.takeSlot slab page area
    .ok (taken, some slot)
  else match manager.pool.allocPage with
    | .error fault => .error fault
    | .ok (pool, none) => .ok ({ manager with pool }, none)
    | .ok (pool, some index) =>
      let fresh := (initPage { manager with pool } slab index).modifySlab slab (fun s =>
        { s with partialPagesNo := s.partialPagesNo + 1 })
      let (taken, slot) := fresh.takeSlot slab index area
      .ok (taken, some slot)

def freeItem (slab : Nat) (slot : Slot) : MdbManager :=
  let page := slot.page
  let unlinked := (manager.modifySlab slab (fun s =>
    { s with itemTotalCount := s.itemTotalCount - 1 })).unlinkItem slab slot
  let freeNr := (unlinked.pages page).freeNr
  let unlisted :=
    if freeNr = 0 then
      (unlinked.unlinkPage slab page .full).modifySlab slab (fun s =>
        { s with fullPagesNo := s.fullPagesNo - 1, partialPagesNo := s.partialPagesNo + 1 })
    else unlinked.unlinkPage slab page (.part (freeNr / partialPageBucket))
  let pushed := (unlisted.modifyItem slot (fun item =>
    { item with prev := 0, next := 0, hNext := (unlisted.pages page).freeHead })).modifyPage page
      (fun info => { info with freeHead := (unlisted.items slot).itemId, freeNr := freeNr + 1 })
  if freeNr + 1 = (pushed.slabs slab).perSlab then
    let emptied := pushed.modifySlab slab (fun s =>
      { s with partialPagesNo := s.partialPagesNo - 1 })
    let s := emptied.slabs slab
    if s.freePagesNo + s.fullPagesNo + s.partialPagesNo ≤ 1 then
      (emptied.linkPage slab page .free).modifySlab slab (fun s =>
        { s with freePagesNo := s.freePagesNo + 1 })
    else { emptied with pool := emptied.pool.freePage (emptied.pages page).id }
  else pushed.linkPage slab page (.part ((freeNr + 1) / partialPageBucket))

/-! ### Eviction -/

def expiredFrom (manager : MdbManager) (now : UInt32) : Nat → Nat → Option Slot
  | 0, _ => none
  | times + 1, pos =>
    if pos = 0 then none
    else
      let item := manager.items (slotOf pos)
      if 0 < item.exptime ∧ item.exptime < now then some (slotOf pos)
      else expiredFrom manager now times item.prev

/-- The flags go; all else of the old item stays for the caller to deal with. -/
def evict (slab : Nat) (slot : Slot) (area : Nat) : MdbManager :=
  (manager.modifyItem slot (fun item => { item with itemId := clearFlags item.itemId })).updateItem
    slab slot area

def evictSelf (manager : MdbManager) (slab area : Nat) (now : UInt32) :
    Option (MdbManager × Slot × AllocType) :=
  let tail := ((manager.slabs slab).itemList area).itemTail
  if tail = 0 then none
  else match manager.expiredFrom now 50 tail with
    | some slot => some (manager.evict slab slot (manager.items slot).area, slot, .expired)
    | none => some (manager.evict slab (slotOf tail) (manager.items (slotOf tail)).area,
        slotOf tail, .evictSelf)

def evictIndexFrom (s : SlabManager) : Nat → Nat → Option Nat
  | 0, _ => none
  | times + 1, index =>
    if (s.itemList index).itemTail ≠ 0 then some index
    else evictIndexFrom s times (if index + 1 ≥ tairMaxAreaCount then 0 else index + 1)

def evictAny (manager : MdbManager) (slab area : Nat) (now : UInt32) :
    Except Fault (MdbManager × Slot × AllocType) :=
  let s := manager.slabs slab
  let start := if s.evictIndex ≥ tairMaxAreaCount then 0 else s.evictIndex
  match evictIndexFrom s (tairMaxAreaCount + 1) start with
  | none => .error .assertFailed
  | some index =>
    let slot := slotOf (s.itemList index).itemTail
    let item := manager.items slot
    let type := if 0 < item.exptime ∧ item.exptime < now then AllocType.expired else .evictAny
    let turned := manager.modifySlab slab (fun s => { s with evictIndex := index })
    .ok (turned.evict slab slot area, slot, type)

def isQuotaExceed (area : Nat) : Bool :=
  (manager.areaStat area).quota ≤ (manager.areaStat area).dataSize

/-- What `alloc_item` books after a slot was taken from free memory. -/
def bookNew (slab area : Nat) : MdbManager :=
  manager.modifySlab slab (fun s =>
    { s with itemCount := Function.update s.itemCount area (s.itemCount area + 1) })

/-- What it books after an eviction from the area itself. -/
def bookSelf (slab : Nat) (type : AllocType) (exceed : Bool) : MdbManager :=
  if type = .evictSelf ∧ exceed = false then
    manager.modifySlab slab (fun s => { s with evictTotalCount := s.evictTotalCount + 1 })
  else manager

/-- What it books after an eviction from any area. The item still has its old key. -/
def bookAny (slab area : Nat) (slot : Slot) (type : AllocType) : MdbManager :=
  let old := (manager.items slot).area
  let counted := if type = .evictAny then
      manager.modifySlab slab (fun s => { s with evictTotalCount := s.evictTotalCount + 1 })
    else manager
  let left := counted.modifySlab slab (fun s =>
    { s with itemCount := Function.update s.itemCount old (s.itemCount old - 1) })
  left.bookNew slab area

def allocByEvictAny (slab area : Nat) (now : UInt32) :
    Except Fault (MdbManager × Slot × AllocType) :=
  (fun (evicted : MdbManager × Slot × AllocType) =>
      (evicted.1.bookAny slab area evicted.2.1 evicted.2.2, evicted.2.1, evicted.2.2)) <$>
    manager.evictAny slab area now

/-- An area below its quota gets free memory first, one above it a slot of its own. -/
def allocItem (slab area : Nat) (now : UInt32) : Except Fault (MdbManager × Slot × AllocType) :=
  check (area < tairMaxAreaCount) <|
    if manager.isQuotaExceed area then
      match manager.evictSelf slab area now with
      | some (evicted, slot, type) => .ok (evicted.bookSelf slab type true, slot, type)
      | none => manager.allocNewItem slab area >>= fun result =>
        match result with
        | (taken, some slot) => .ok (taken.bookNew slab area, slot, .allocNew)
        | (same, none) => same.allocByEvictAny slab area now
    else
      manager.allocNewItem slab area >>= fun result =>
        match result with
        | (taken, some slot) => .ok (taken.bookNew slab area, slot, .allocNew)
        | (same, none) =>
          match same.evictSelf slab area now with
          | some (evicted, slot, type) => .ok (evicted.bookSelf slab type false, slot, type)
          | none => same.allocByEvictAny slab area now

def getSlabmng (size : Nat) : Option Nat :=
  (List.range manager.slabsCount).find? (fun slab => size ≤ (manager.slabs slab).slabSize)

/-! ### The hash table -/

/-- All bytes count as unsigned here. -/
def hash (key : List UInt8) : UInt32 := murMur UInt8.toUInt32 97 key

/-- `bucketSize` is a power of two. -/
def getBucketIndex (key : List UInt8) : Nat :=
  (hash key).toNat % manager.bucketSize

def hasKey (slot : Slot) (key : List UInt8) : Bool :=
  (manager.items slot).keyLen = key.length ∧ (manager.items slot).key = key

def findFrom (manager : MdbManager) (key : List UInt8) :
    Nat → Nat → Option Slot → Except Fault (Option (Slot × Option Slot))
  | 0, _, _ => .error .endless
  | steps + 1, pos, prior =>
    if pos = 0 then .ok none
    else if manager.hasKey (slotOf pos) key then .ok (some (slotOf pos, prior))
    else findFrom manager key steps (manager.items (slotOf pos)).hNext (some (slotOf pos))

def findWithPrior (key : List UInt8) : Except Fault (Option (Slot × Option Slot)) :=
  manager.findFrom key walkLimit (manager.hashtable (manager.getBucketIndex key)) none

def find (key : List UInt8) : Except Fault (Option Slot) :=
  (Option.map Prod.fst) <$> manager.findWithPrior key

def insert (slot : Slot) : MdbManager :=
  let index := manager.getBucketIndex (manager.items slot).key
  { manager.modifyItem slot (fun item => { item with hNext := manager.hashtable index }) with
    hashtable := Function.update manager.hashtable index (manager.items slot).itemId
    itemCount := manager.itemCount + 1 }

def bypass (index : Nat) (found : Slot) (prior : Option Slot) : MdbManager :=
  let next := (manager.items found).hNext
  let shorter := match prior with
    | some before => manager.modifyItem before (fun item => { item with hNext := next })
    | none => { manager with hashtable := Function.update manager.hashtable index next }
  { shorter.modifyItem found (fun item => { item with hNext := 0 }) with
    itemCount := manager.itemCount - 1 }

/-- Whatever item with the same key is found first is the one that leaves its chain. -/
def remove (slot : Slot) : Except Fault MdbManager :=
  (fun (found : Option (Slot × Option Slot)) => match found with
    | none => manager
    | some (item, prior) =>
      manager.bypass (manager.getBucketIndex (manager.items slot).key) item prior) <$>
    manager.findWithPrior (manager.items slot).key

end MdbManager

end Tair.Mdb
