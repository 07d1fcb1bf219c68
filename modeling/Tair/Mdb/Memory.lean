/-
The memory of the memory engine: a pool of pages, the slabs that cut pages into slots, a list of
items for every slab and area, and a hash table, all threaded by ids and page numbers. Assertions
that only guard against memory that is already corrupt are left out.
-/

import Tair.Common.DataEntry
import Tair.Common.Fault
import Tair.Mdb.ItemId

namespace Tair.Mdb

open Function Tair.Common

/-- `data` is the memory behind the header. -/
structure MdbItem where
  hNext : Nat
  prev : Nat
  next : Nat
  exptime : UInt32
  keyLen : Nat
  dataLen : Nat
  version : UInt16
  updateTime : UInt32
  itemId : Nat
  data : List UInt8
deriving DecidableEq, Repr, Inhabited

/-- `sizeof(mdb_item)`. -/
def mdbItemSize : Nat := 46

def byteAt (memory : List UInt8) (index : Nat) : Nat := (memory.getD index 0).toNat

def keyArea (key : List UInt8) : Nat := byteAt key 0 + byteAt key 1 * 2 ^ 8

namespace MdbItem

def key (item : MdbItem) : List UInt8 := item.data.take item.keyLen

def value (item : MdbItem) : List UInt8 := (item.data.drop item.keyLen).take item.dataLen

def area (item : MdbItem) : Nat := byteAt item.data 0 + byteAt item.data 1 * 2 ^ 8

end MdbItem

structure PageInfo where
  id : Nat
  freeNr : Nat
  next : Nat
  prev : Nat
  freeHead : Nat
deriving DecidableEq, Repr, Inhabited

/-- `sizeof(mem_cache::page_info)`. -/
def pageInfoSize : Nat := 24

structure ItemList where
  itemHead : Nat
  itemTail : Nat
deriving DecidableEq, Repr, Inhabited

inductive PageList where
  | full
  | free
  | part (bucket : Nat)
deriving DecidableEq, Repr

structure SlabManager where
  slabSize : Nat
  perSlab : Nat
  itemList : Nat → ItemList
  itemCount : Nat → UInt64
  itemTotalCount : UInt64
  evictTotalCount : UInt64
  fullPagesNo : Int
  partialPagesNo : Int
  freePagesNo : Int
  evictIndex : Nat
  freePages : Nat
  fullPages : Nat
  partialPages : Nat → Nat

/-- Every ten items. -/
def partialPageBucket : Nat := 10

namespace SlabManager

variable (slab : SlabManager)

def partialPagesBucketNo : Nat :=
  (slab.perSlab + partialPageBucket - 1) / partialPageBucket

def partialHeads : List Nat :=
  (List.range slab.partialPagesBucketNo).map slab.partialPages

def getPartialPageId : Nat :=
  (slab.partialHeads.find? (· ≠ 0)).getD 0

def getTheMostFreeItemsOfPartialPageId : Nat :=
  (slab.partialHeads.reverse.find? (· ≠ 0)).getD 0

def pageHead : PageList → Nat
  | .full => slab.fullPages
  | .free => slab.freePages
  | .part bucket => slab.partialPages bucket

def setPageHead (list : PageList) (head : Nat) : SlabManager :=
  match list with
  | .full => { slab with fullPages := head }
  | .free => { slab with freePages := head }
  | .part bucket => { slab with partialPages := Function.update slab.partialPages bucket head }

end SlabManager

structure MemPool where
  totalPages : Nat
  freePages : Nat
  currentPage : Nat
  pageBitmap : Nat → Bool

/-- Of the counters of an area only those that items are booked in. -/
structure AreaStat where
  quota : UInt64
  dataSize : UInt64
  spaceUsage : UInt64
  itemCount : UInt64
deriving DecidableEq, Repr, Inhabited

/-- `slabsCount` slab managers, and `bucketSize` heads of hash chains; `itemCount` is
that of the hash table. -/
structure MdbManager where
  pool : MemPool
  pages : Nat → PageInfo
  items : Slot → MdbItem
  slabsCount : Nat
  slabs : Nat → SlabManager
  bucketSize : Nat
  hashtable : Nat → Nat
  itemCount : Int
  areaStat : Nat → AreaStat

/-! ### The pool -/

namespace MemPool

/-- A full turn without a free page is an endless loop. -/
def search (pool : MemPool) : Nat → Nat → Except Fault Nat
  | 0, _ => .error .endless
  | turns + 1, current =>
    let index := if current = pool.totalPages then 0 else current
    if pool.pageBitmap index then search pool turns (index + 1) else .ok index

def taken (pool : MemPool) (index : Nat) : MemPool :=
  { pool with
    freePages := pool.freePages - 1
    currentPage := index + 1
    pageBitmap := Function.update pool.pageBitmap index true }

/-- Page 0 holds the pool's own data and is never handed out. -/
def allocPage (pool : MemPool) : Except Fault (MemPool × Option Nat) :=
  if pool.freePages = 0 then .ok (pool, none)
  else match pool.search (pool.totalPages + 1) pool.currentPage with
    | .error fault => .error fault
    | .ok index => check (0 < index ∧ index < pool.totalPages) (.ok (pool.taken index, some index))

def freePage (pool : MemPool) (index : Nat) : MemPool :=
  if pool.pageBitmap index then
    { pool with
      freePages := pool.freePages + 1
      pageBitmap := Function.update pool.pageBitmap index false }
  else pool

end MemPool

/-! ### Lists in memory -/

namespace MdbManager

variable (manager : MdbManager)

def modifyItem (slot : Slot) (change : MdbItem → MdbItem) : MdbManager :=
  { manager with items := Function.update manager.items slot (change (manager.items slot)) }

def modifyPage (page : Nat) (change : PageInfo → PageInfo) : MdbManager :=
  { manager with pages := Function.update manager.pages page (change (manager.pages page)) }

def modifySlab (slab : Nat) (change : SlabManager → SlabManager) : MdbManager :=
  { manager with slabs := Function.update manager.slabs slab (change (manager.slabs slab)) }

def setItemList (slab area : Nat) (list : ItemList) : MdbManager :=
  manager.modifySlab slab (fun s => { s with itemList := Function.update s.itemList area list })

def modifyAreaStat (area : Nat) (change : AreaStat → AreaStat) : MdbManager :=
  { manager with
    areaStat := Function.update manager.areaStat area (change (manager.areaStat area)) }

/-- A write through a link, if the link leads anywhere. -/
def modifyLinked (id : Nat) (change : MdbItem → MdbItem) : MdbManager :=
  if id = 0 then manager else manager.modifyItem (slotOf id) change

def modifyLinkedPage (page : Nat) (change : PageInfo → PageInfo) : MdbManager :=
  if page = 0 then manager else manager.modifyPage page change

def linkItem (slab : Nat) (slot : Slot) (area : Nat) : MdbManager :=
  let list := (manager.slabs slab).itemList area
  let id := (manager.items slot).itemId
  let fronted := manager.modifyItem slot (fun item =>
    { item with next := list.itemHead, prev := 0 })
  let linked := fronted.modifyLinked list.itemHead (fun item => { item with prev := id })
  linked.setItemList slab area ⟨id, if list.itemTail = 0 then id else list.itemTail⟩

def unlinkItem (slab : Nat) (slot : Slot) : MdbManager :=
  let item := manager.items slot
  let list := (manager.slabs slab).itemList item.area
  let shorter := manager.setItemList slab item.area
    ⟨if itemIdEqual item.itemId list.itemHead then item.next else list.itemHead,
      if itemIdEqual item.itemId list.itemTail then item.prev else list.itemTail⟩
  let forward := shorter.modifyLinked item.prev (fun other =>
    { other with next := (shorter.items slot).next })
  forward.modifyLinked (forward.items slot).next (fun other =>
    { other with prev := (forward.items slot).prev })

def updateItem (slab : Nat) (slot : Slot) (area : Nat) : MdbManager :=
  (manager.unlinkItem slab slot).linkItem slab slot area

def linkPage (slab page : Nat) (list : PageList) : MdbManager :=
  let head := (manager.slabs slab).pageHead list
  let id := (manager.pages page).id
  let fronted := manager.modifyPage page (fun info => { info with prev := 0, next := head })
  let linked := fronted.modifyLinkedPage head (fun info => { info with prev := id })
  linked.modifySlab slab (fun s => s.setPageHead list id)

def unlinkPage (slab page : Nat) (list : PageList) : MdbManager :=
  let info := manager.pages page
  let shorter := if info.id = (manager.slabs slab).pageHead list then
      manager.modifySlab slab (fun s => s.setPageHead list info.next)
    else manager
  let backward := shorter.modifyLinkedPage info.next (fun other =>
    { other with prev := (shorter.pages page).prev })
  let forward := backward.modifyLinkedPage (backward.pages page).prev (fun other =>
    { other with next := (backward.pages page).next })
  forward.modifyPage page (fun own => { own with prev := 0, next := 0 })

end MdbManager

end Tair.Mdb
