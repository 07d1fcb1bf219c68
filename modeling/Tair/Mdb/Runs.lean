/-
Runs of the memory engine. The engine starts with empty memory, gives some pages to the
hash table and one page to every slab, and then takes operations one after the other.
-/

import Tair.Library.Machine
import Tair.Mdb.Manager

namespace Tair.Mdb

open MdbManager Tair.Common Tair.Library

/-- What the engine is configured with and asserts of it. `grow` is the next slab size before
alignment, a product with a floating point factor above one. -/
structure MdbConfig where
  pageSize : Nat
  totalPages : Nat
  slabBaseSize : Nat
  grow : Nat → Nat
  hashShift : Nat
  pageSize_ge : 2 ^ 20 ≤ pageSize
  grow_ge : ∀ size, size ≤ grow size

/-- What ids can tell apart, and nobody asserts: slab sizes have 20 bits in them, which allows
pages of two megabytes, and pages have 16. -/
structure MdbParam extends MdbConfig where
  pageSize_le : pageSize ≤ 2 ^ 21
  totalPages_le : totalPages ≤ 2 ^ 16

instance : Coe MdbParam MdbConfig := ⟨MdbParam.toMdbConfig⟩

def align (size : Nat) : Nat := (size + 7) / 8 * 8

def tairSlabLargest : Nat := 100

/-- `sizeof(slab_manager) * TAIR_SLAB_LARGEST` behind a megabyte of other data. -/
def metaLen : Nat := 2 ^ 20 + 32848 * tairSlabLargest

namespace MdbConfig

variable (param : MdbConfig)

def baseSize : Nat :=
  if param.slabBaseSize < mdbItemSize + 16 then align (mdbItemSize + 16) else param.slabBaseSize

def room : Nat := param.pageSize - pageInfoSize

/-- A size above half of a page becomes the whole page. -/
def slabSizesFrom (param : MdbConfig) : Nat → Nat → List Nat
  | 0, _ => []
  | count + 1, start =>
    if start ≤ param.room then
      let size := if param.room / 2 < start then param.room else start
      size :: slabSizesFrom param count (align (param.grow size))
    else []

def slabSizes : List Nat :=
  param.slabSizesFrom tairSlabLargest param.baseSize

def metaPages : Nat := (metaLen + param.pageSize - 1) / param.pageSize

def bucketSize : Nat := 2 ^ param.hashShift

def hashTablePages : Nat :=
  (param.bucketSize * 8 + param.pageSize - 1) / param.pageSize

end MdbConfig

namespace MdbManager

def emptySlab (size perSlab : Nat) : SlabManager where
  slabSize := size
  perSlab := perSlab
  itemList := fun _ => ⟨0, 0⟩
  itemCount := fun _ => 0
  itemTotalCount := 0
  evictTotalCount := 0
  fullPagesNo := 0
  partialPagesNo := 0
  freePagesNo := 0
  evictIndex := 0
  freePages := 0
  fullPages := 0
  partialPages := fun _ => 0

def empty (param : MdbConfig) : MdbManager where
  pool :=
    { totalPages := param.totalPages
      freePages := param.totalPages - param.metaPages
      currentPage := param.metaPages
      pageBitmap := fun page => page < param.metaPages }
  pages := fun _ => default
  items := fun _ => default
  slabsCount := 0
  slabs := fun _ => emptySlab 0 0
  bucketSize := param.bucketSize
  hashtable := fun _ => 0
  itemCount := 0
  areaStat := fun _ => ⟨0, 0, 0, 0⟩

def takeTablePage (manager : MdbManager) : Except Fault MdbManager :=
  match manager.pool.allocPage with
  | .error fault => .error fault
  | .ok (_, none) => .error .assertFailed
  | .ok (pool, some _) => .ok { manager with pool }

def preAlloc (manager : MdbManager) (slab : Nat) : Except Fault MdbManager :=
  match manager.pool.allocPage with
  | .error fault => .error fault
  | .ok (pool, none) => .ok { manager with pool }
  | .ok (pool, some index) =>
    let counted := modifySlab { manager with pool } slab (fun s =>
      { s with freePagesNo := s.freePagesNo + 1 })
    .ok ((counted.initPage slab index).linkPage slab index .free)

def addSlab (param : MdbConfig) (manager : MdbManager) (size : Nat) : Except Fault MdbManager :=
  preAlloc { manager with
    slabs := Function.update manager.slabs manager.slabsCount (emptySlab size (param.room / size))
    slabsCount := manager.slabsCount + 1 } manager.slabsCount

/-- Slab sizes are of type `int`. The engine does not get over one that is too large. -/
def initialized (param : MdbConfig) : Except Fault MdbManager :=
  check (param.metaPages < param.totalPages) <|
    (List.range (max param.hashTablePages 1)).foldlM
        (fun (manager : MdbManager) _ => manager.takeTablePage) (empty param) >>= fun table =>
      check (param.baseSize < param.pageSize ∧
          ∀ size ∈ param.slabSizes, align (param.grow size) < 2 ^ 31)
        (param.slabSizes.foldlM (addSlab param) table)

end MdbManager

/-- The operations, with what they read from the clock and from floating point. -/
inductive Operation where
  | put (key data : DataEntry) (versionCare : Bool) (expired : Int32) (now evictNow : UInt32)
  | get (key data : DataEntry) (now : UInt32)
  | remove (key : DataEntry)
  | clear (area : Int) (clock : Nat → UInt32) (finalCount : Nat → Int)
  | closeBuckets (bucketCount : Nat) (buckets : List Nat) (clock : Nat → UInt32)
  | removeExprdItem (clock : Nat → UInt32)
  | balanceSlab (finalCount : Nat → Int)
  | checkQuota
  | setAreaQuota (area : Nat) (quota : UInt64)

namespace MdbManager

def step (manager : MdbManager) : Operation → Except Fault MdbManager
  | .put key data versionCare expired now evictNow =>
    Prod.fst <$> manager.doPut key data versionCare expired now evictNow
  | .get key data now => Prod.fst <$> manager.doGet key data now
  | .remove key => Prod.fst <$> manager.doRemove key
  | .clear area clock finalCount => manager.clear area clock finalCount
  | .closeBuckets bucketCount buckets clock => manager.closeBuckets bucketCount buckets clock
  | .removeExprdItem clock => manager.removeExprdItem clock
  | .balanceSlab finalCount => manager.balanceSlab finalCount
  | .checkQuota => manager.checkQuota
  | .setAreaQuota area quota => .ok (manager.setAreaQuota area quota)

end MdbManager

/-- Keys are put as the servers put them. -/
def Operation.Served (_ : MdbManager) : Operation → Prop
  | .put key _ _ _ _ _ => MergedKey key.data
  | _ => True

instance (manager : MdbManager) (operation : Operation) : Decidable (operation.Served manager) :=
  match operation with
  | .put key _ _ _ _ _ => inferInstanceAs (Decidable (MergedKey key.data))
  | .get .. | .remove _ | .clear .. | .closeBuckets .. | .removeExprdItem _ | .balanceSlab _
  | .checkQuota | .setAreaQuota .. => .isTrue trivial

/-- The states that operations with such keys lead to. -/
abbrev MdbManager.Serves : MdbManager → MdbManager → Prop :=
  Reached MdbManager.step fun manager operation => operation.Served manager

/-- A small engine, for runs that are computed. -/
def smallParam : MdbParam where
  pageSize := 2 ^ 20
  totalPages := 300
  slabBaseSize := 62
  grow size := size * 12 / 10
  hashShift := 4
  pageSize_ge := le_rfl
  pageSize_le := by decide
  totalPages_le := by decide
  grow_ge size := by omega

theorem exists_served (param : MdbConfig) (operations : List Operation) (P : MdbManager → Prop)
    (ran : ∃ start, initialized param = .ok start ∧ ∃ state, guardedRun MdbManager.step
      (fun manager operation => operation.Served manager) operations start = some state ∧
      P state) :
    ∃ start state, initialized param = .ok start ∧ start.Serves state ∧ P state :=
  exists_reached operations ran

/-- With a base size like this there is one slab, with pages of one slot. -/
def wideParam : MdbParam where
  pageSize := 2 ^ 20
  totalPages := 300
  slabBaseSize := 600000
  grow size := size * 11 / 10
  hashShift := 4
  pageSize_ge := le_rfl
  pageSize_le := by decide
  totalPages_le := by decide
  grow_ge size := by omega

/-- Slots of a page each, and room for three gigabytes. -/
def largeParam : MdbParam :=
  { wideParam with
    totalPages := 3100
    totalPages_le := by decide }

/-- Pages of two megabytes, with one slot each. -/
def doubleParam : MdbParam :=
  { wideParam with
    pageSize := 2 ^ 21
    slabBaseSize := 1100000
    pageSize_ge := by decide
    pageSize_le := le_rfl }

/-- Pages of four megabytes, with three slots in those of the first slab. -/
def hugePages : MdbConfig where
  pageSize := 2 ^ 22
  totalPages := 300
  slabBaseSize := 1398000
  grow size := size * 11 / 10
  hashShift := 4
  pageSize_ge := by decide
  grow_ge size := by omega

def entryOf (bytes : List UInt8) : DataEntry := { (default : DataEntry) with data := bytes }

def putOf (key value : List UInt8) : Operation :=
  .put (entryOf key) (entryOf value) true 0 1000 1000

end Tair.Mdb
