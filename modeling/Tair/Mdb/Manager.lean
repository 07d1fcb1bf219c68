/-
The operations of the memory engine. Puts, gets and removes work on one key; sweeps go
over hash chains, over the list of an area or over a page and remove what they find.
Every operation reads the clock for itself.
-/

import Tair.Common.ReturnCode
import Tair.Mdb.MemCache

namespace Tair.Mdb

open Tair.Common

namespace MdbManager

variable (manager : MdbManager) (item : MdbItem)

def bookGone : MdbManager :=
  manager.modifyAreaStat item.area (fun stat =>
    { stat with
      dataSize := stat.dataSize - UInt64.ofNat (item.keyLen + item.dataLen)
      spaceUsage := stat.spaceUsage - UInt64.ofNat (slabSize item.itemId)
      itemCount := stat.itemCount - 1 })

def bookStored : MdbManager :=
  manager.modifyAreaStat item.area (fun stat =>
    { stat with
      dataSize := stat.dataSize + UInt64.ofNat (item.dataLen + item.keyLen)
      spaceUsage := stat.spaceUsage + UInt64.ofNat (slabSize item.itemId)
      itemCount := stat.itemCount + 1 })

/-- `__remove`: the item leaves the hash table, its list and its page. -/
def removeItem (slot : Slot) : Except Fault MdbManager :=
  let booked := manager.bookGone (manager.items slot)
  (fun (unhashed : MdbManager) =>
    let cleared := unhashed.modifyItem slot (fun item =>
      { item with itemId := clearFlags item.itemId })
    let freed := cleared.freeItem (slabId (cleared.items slot).itemId) slot
    freed.modifyItem slot (fun item =>
      { item with exptime := 0, dataLen := 0, keyLen := 0, version := 0, updateTime := 0 })) <$>
    booked.remove slot

/-! ### Operations on a key -/

/-- An item that is past its time. The second in which it ends still belongs to it. -/
def expired (now : UInt32) : Bool := item.exptime ≠ 0 ∧ item.exptime < now

/-- The expiry that a put with a positive `expired` writes. -/
def exptimeOf (expired : Int32) (now : UInt32) : UInt32 :=
  if now < expired.toUInt32 then expired.toUInt32 else now + expired.toUInt32

/-- An evicted item leaves the hash table and the books of its area. -/
def dropEvicted (slot : Slot) (type : AllocType) : Except Fault MdbManager :=
  if type = .allocNew then .ok manager
  else (manager.bookGone (manager.items slot)).remove slot

/-- The lengths are bit fields of 12 and 20 bits. Without an expiry the field keeps what
it held. -/
def writeItem (slot : Slot) (key data : DataEntry) (version : UInt16) (expired : Int32)
    (oldFlag : Nat) (now : UInt32) : MdbManager :=
  let keyLen := key.data.length % 2 ^ 12
  let dataLen := data.data.length % 2 ^ 20
  manager.modifyItem slot (fun item =>
    { item with
      keyLen
      dataLen
      updateTime := now
      version
      exptime := if 0 < expired then exptimeOf expired now else item.exptime
      itemId := setItemFlags item.itemId (data.dataMeta.flag.toNat ||| oldFlag)
      data := key.data.take keyLen ++ (data.data.take dataLen ++ item.data.drop (keyLen + dataLen)) })

section

variable (key data : DataEntry)

/-- A slot for the new item, its contents and its place in the hash table. The entry of
the key comes back with what was stored. -/
def store (version : UInt16) (expired : Int32) (oldFlag : Nat)
    (now evictNow : UInt32) : Except Fault (MdbManager × DataEntry) :=
  let area := keyArea key.data
  match manager.getSlabmng (key.data.length + data.data.length + mdbItemSize) with
  | none => .error .assertFailed
  | some slab =>
    manager.allocItem slab area evictNow >>= fun (allocated, slot, type) =>
      (fun (emptied : MdbManager) =>
        let written := emptied.writeItem slot key data version expired oldFlag now
        let item := written.items slot
        ((written.insert slot).bookStored item, { key with
            area
            dataMeta := { key.dataMeta with
              version := item.version
              edate := item.exptime
              keysize := UInt16.ofNat item.keyLen
              valsize := BitVec.ofNat 24 item.dataLen
              flag := UInt8.ofNat (itemFlags item.itemId) } })) <$>
        allocated.dropEvicted slot type

/-- `old` is the version that a put which cares about versions goes on from. -/
def storeNext (versionCare : Bool) (old : UInt16) (expired : Int32)
    (oldFlag : Nat) (now evictNow : UInt32) : Except Fault (MdbManager × ReturnCode × DataEntry) :=
  (fun (stored : MdbManager × DataEntry) => (stored.1, .success, stored.2)) <$>
    manager.store key data (if versionCare then old + 1 else key.dataMeta.version) expired oldFlag
      now evictNow

/-- The clock is read before the lock is taken and again when an item must be evicted. -/
def doPut (versionCare : Bool) (expired : Int32) (now evictNow : UInt32) :
    Except Fault (MdbManager × ReturnCode × DataEntry) :=
  manager.find key.data >>= fun found =>
    match found with
    | none => manager.storeNext key data versionCare 0 expired 0 now evictNow
    | some slot =>
      let item := manager.items slot
      let oldFlag := if isDeleted item.itemId then tairItemFlagDeleted else 0
      if MdbManager.expired item now then
        manager.removeItem slot >>= fun removed =>
          removed.storeNext key data versionCare 0 expired oldFlag now evictNow
      else if versionCare ∧ key.dataMeta.version ≠ 0 ∧ item.version ≠ key.dataMeta.version then
        .ok (manager, .versionError, { key with area := keyArea key.data })
      else
        manager.removeItem slot >>= fun removed =>
          removed.storeNext key data versionCare item.version expired oldFlag now evictNow

def readItem : DataEntry × DataEntry :=
  let filled (info : ItemMeta) : ItemMeta := { info with
    version := item.version
    edate := item.exptime
    flag := UInt8.ofNat (itemFlags item.itemId)
    keysize := UInt16.ofNat item.keyLen
    valsize := BitVec.ofNat 24 item.dataLen }
  ({ key with dataMeta := { filled key.dataMeta with mdate := item.updateTime } },
    { data.setData item.value with dataMeta := filled data.dataMeta })

def doGet (now : UInt32) : Except Fault (MdbManager × ReturnCode × DataEntry × DataEntry) :=
  manager.find key.data >>= fun found =>
    match found with
    | none => .ok (manager, .dataNotExist, key, data)
    | some slot =>
      let item := manager.items slot
      if expired item now then
        (fun (removed : MdbManager) => (removed, .dataExpired, key, data)) <$>
          manager.removeItem slot
      else
        check (key.area = item.area) (.ok (manager.updateItem (slabId item.itemId) slot item.area,
          .success, readItem item key data))

end

def doRemove (key : DataEntry) : Except Fault (MdbManager × ReturnCode) :=
  manager.find key.data >>= fun found =>
    match found with
    | none => .ok (manager, .dataNotExist)
    | some slot =>
      (fun (removed : MdbManager) => (removed, .success)) <$> manager.removeItem slot

def setAreaQuota (area : Nat) (quota : UInt64) : MdbManager :=
  { manager with
    areaStat := Function.update manager.areaStat area { manager.areaStat area with quota } }

/-! ### Sweeps over hash chains -/

def sweepFrom (chosen : MdbItem → Bool) : Nat → Nat → MdbManager → Except Fault MdbManager
  | 0, _, _ => .error .endless
  | steps + 1, pos, manager =>
    if pos = 0 then .ok manager
    else
      let item := manager.items (slotOf pos)
      if chosen item then
        manager.removeItem (slotOf pos) >>= fun removed =>
          sweepFrom chosen steps item.hNext removed
      else sweepFrom chosen steps item.hNext manager

/-- The choice may depend on the chain, since the clock is read for each. -/
def sweep (chosen : Nat → MdbItem → Bool) : Except Fault MdbManager :=
  (List.range manager.bucketSize).foldlM (fun (swept : MdbManager) index =>
    sweepFrom (chosen index) walkLimit (swept.hashtable index) swept) manager

/-- A sweep takes an item in the second in which it ends. -/
def overdue (now : UInt32) : Bool := item.exptime ≠ 0 ∧ item.exptime ≤ now

def removeExprdItem (clock : Nat → UInt32) : Except Fault MdbManager :=
  manager.sweep (fun index item => overdue item (clock index))

def serverBucket (bucketCount : Nat) (key : List UInt8) : Nat :=
  (murMurHash (key.drop 2)).toNat % bucketCount

def closeBuckets (bucketCount : Nat) (buckets : List Nat) (clock : Nat → UInt32) :
    Except Fault MdbManager :=
  manager.sweep (fun index item =>
    overdue item (clock index) || decide (serverBucket bucketCount item.key ∈ buckets))

/-! ### Sweeps over the lists of an area -/

def clearFrom : Nat → Nat → MdbManager → Except Fault MdbManager
  | 0, _, _ => .error .endless
  | steps + 1, pos, manager =>
    if pos = 0 then .ok manager
    else
      manager.removeItem (slotOf pos) >>= fun removed =>
        clearFrom steps (manager.items (slotOf pos)).next removed

def clearArea (area : Nat) : Except Fault MdbManager :=
  (List.range manager.slabsCount).foldlM (fun (cleared : MdbManager) slab =>
    clearFrom walkLimit ((cleared.slabs slab).itemList area).itemHead cleared) manager

/-- One round over the slabs: each loses the last item of the area, but in the first
round only if it holds a page full of them. -/
def quotaRound (area : Nat) (firstRound : Bool) :
    List Nat → MdbManager → Int → Except Fault (MdbManager × Int)
  | [], manager, exceed => .ok (manager, exceed)
  | slab :: rest, manager, exceed =>
    let s := manager.slabs slab
    let list := s.itemList area
    if list.itemHead = 0 ∨ list.itemTail = 0 then quotaRound area firstRound rest manager exceed
    else if (s.itemCount area).toNat < s.perSlab ∧ firstRound then
      quotaRound area firstRound rest manager exceed
    else
      let item := manager.items (slotOf list.itemTail)
      let left := exceed - (item.keyLen + item.dataLen : Nat)
      manager.removeItem (slotOf list.itemTail) >>= fun removed =>
        if left ≤ 0 then .ok (removed, left) else quotaRound area firstRound rest removed left

def quotaRounds (area : Nat) : Nat → Bool → MdbManager → Int → Except Fault MdbManager
  | 0, _, _, _ => .error .endless
  | rounds + 1, firstRound, manager, exceed =>
    if exceed ≤ 0 then .ok manager
    else
      quotaRound area firstRound (List.range manager.slabsCount) manager exceed >>= fun result =>
        quotaRounds area rounds false result.1 result.2

/-- `exceed` is an `int`: only its low 32 bits arrive. -/
def keepAreaQuota (area : Nat) (exceed : UInt64) : Except Fault MdbManager :=
  let bytes : Nat := exceed.toNat % 2 ^ 32
  check (0 < bytes ∧ bytes < 2 ^ 31) (quotaRounds area (walkLimit + 1) true manager (bytes : Nat))

def checkQuota : Except Fault MdbManager :=
  (List.range tairMaxAreaCount).foldlM (fun (kept : MdbManager) area =>
    let stat := kept.areaStat area
    if stat.dataSize = 0 then .ok kept
    else if stat.quota < stat.dataSize then kept.keepAreaQuota area (stat.dataSize - stat.quota)
    else .ok kept) manager

/-! ### Balancing slabs -/

/-- An item without neighbours is taken for a free slot. -/
def clearPage (slab page : Nat) : Except Fault MdbManager :=
  (List.range (manager.slabs slab).perSlab).foldlM (fun (cleared : MdbManager) offset =>
    let item := cleared.items ⟨page, offset⟩
    if item.prev = 0 ∧ item.next = 0 then .ok cleared
    else cleared.removeItem ⟨page, offset⟩) manager

/-- The last page of a slab stays. -/
def freePage (manager : MdbManager) (slab : Nat) : Except Fault (MdbManager × Bool) :=
  let s := manager.slabs slab
  if s.freePagesNo + s.fullPagesNo + s.partialPagesNo ≤ 1 then .ok (manager, false)
  else if 0 < s.freePagesNo then
    let page := s.freePages
    let unlinked := (manager.unlinkPage slab page .free).modifySlab slab (fun s =>
      { s with freePagesNo := s.freePagesNo - 1 })
    .ok ({ unlinked with pool := unlinked.pool.freePage (unlinked.pages page).id }, true)
  else if 0 < s.partialPagesNo then
    (fun (cleared : MdbManager) => (cleared, true)) <$>
      manager.clearPage slab s.getTheMostFreeItemsOfPartialPageId
  else if 0 < s.fullPagesNo then
    (fun (cleared : MdbManager) => (cleared, true)) <$> manager.clearPage slab s.fullPages
  else .error .assertFailed

/-- Pages to add or to give up for every slab with items. `finalCount` is the number of
items a slab should have: a quotient of floating point numbers, rounded. -/
def needPage (finalCount : Nat → Int) (slab : Nat) : Int :=
  let s := manager.slabs slab
  let needCount := finalCount slab - s.itemTotalCount.toNat
  let pages : Int := ((needCount.natAbs + s.perSlab - 1) / s.perSlab : Nat)
  if 0 < needCount then pages else -pages

def calcSlabBalanceInfo (finalCount : Nat → Int) : List (Nat × Int) :=
  let used := (List.range manager.slabsCount).filter (fun slab =>
    (manager.slabs slab).itemTotalCount ≠ 0)
  let adjustInfo := used.map (fun slab => (slab, manager.needPage finalCount slab))
  let needAlloc : Int := (adjustInfo.map (fun entry => max entry.2 0)).sum
  if needAlloc ≤ manager.pool.freePages then
    adjustInfo.map (fun entry => (entry.1, max entry.2 0))
  else adjustInfo

def freePages (slab : Nat) : Nat → MdbManager → Except Fault MdbManager
  | 0, manager => .ok manager
  | times + 1, manager =>
    manager.freePage slab >>= fun result =>
      if result.2 then freePages slab times result.1 else .ok result.1

def balanceSlab (finalCount : Nat → Int) : Except Fault MdbManager :=
  (manager.calcSlabBalanceInfo finalCount).foldlM (fun (balanced : MdbManager) entry =>
    freePages entry.1 (-entry.2).toNat balanced) manager

def balanceSlabDone : MdbManager :=
  { manager with slabs := fun slab => { manager.slabs slab with evictTotalCount := 0 } }

/-- Negative areas stand for the sweeps. -/
def clear (area : Int) (clock : Nat → UInt32) (finalCount : Nat → Int) : Except Fault MdbManager :=
  if area = -1 then manager.removeExprdItem clock
  else if area = -2 then balanceSlabDone <$> manager.balanceSlab finalCount
  else if area = -3 then
    (List.range tairMaxAreaCount).foldlM (fun (cleared : MdbManager) area => cleared.clearArea area)
      manager
  else check (0 ≤ area ∧ area < tairMaxAreaCount) (manager.clearArea area.toNat)

end MdbManager

end Tair.Mdb
