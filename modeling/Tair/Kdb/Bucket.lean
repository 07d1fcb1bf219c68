/-
A bucket of the kdb engine. Its records are kept by a hash database, which gives back what
was last set for a key and whose cursor passes over every record once. In front of the value
a record has its meta data.
-/

import Tair.Common.DataEntry
import Tair.Common.ReturnCode

namespace Tair.Kdb

open Tair.Common Tair.Library

abbrev Bytes := List UInt8

structure KdbItemMeta where
  flag : UInt8
  reserved : UInt8
  version : UInt16
  cdate : UInt32
  mdate : UInt32
  edate : UInt32
deriving DecidableEq, Repr, Inhabited

def KdbItemMeta.zero : KdbItemMeta := ⟨0, 0, 0, 0, 0, 0⟩

def kdbMetaSize : Nat := 16

structure KdbItem where
  info : KdbItemMeta
  value : Bytes
deriving DecidableEq, Repr, Inhabited

namespace KdbItem

def encode (item : KdbItem) : Bytes :=
  item.info.flag :: item.info.reserved :: (leBytes 2 item.info.version.toNat ++
    (leBytes 4 item.info.cdate.toNat ++ (leBytes 4 item.info.mdate.toNat ++
      (leBytes 4 item.info.edate.toNat ++ item.value))))

def decode (fullValue : Bytes) : KdbItem where
  info :=
    { flag := UInt8.ofNat (fieldAt fullValue 0 1)
      reserved := UInt8.ofNat (fieldAt fullValue 1 1)
      version := UInt16.ofNat (fieldAt fullValue 2 2)
      cdate := UInt32.ofNat (fieldAt fullValue 4 4)
      mdate := UInt32.ofNat (fieldAt fullValue 8 4)
      edate := UInt32.ofNat (fieldAt fullValue 12 4) }
  value := fullValue.drop kdbMetaSize

/-- The second in which it ends still belongs to an item. -/
def isExpired (item : KdbItem) (now : UInt32) : Bool :=
  item.info.edate ≠ 0 ∧ item.info.edate < now

end KdbItem

abbrev KdbBucket := AList (fun _ : Bytes => Bytes)

namespace KdbBucket

structure Dates where
  cdate : UInt32
  mdate : UInt32
  edate : UInt32
deriving DecidableEq, Repr

/-- The dates of a put. Those of the key count when it has a creation date and nobody cares
about versions, which is how migrations and duplicates arrive. -/
def putDates (now : UInt32) (info : ItemMeta) (versionCare : Bool) (expireTime : UInt32) : Dates :=
  if info.cdate = 0 ∨ versionCare then
    { cdate := now
      mdate := now
      edate :=
        if 0 < expireTime then if now < expireTime then expireTime else now + expireTime
        else 0 }
  else { cdate := info.cdate, mdate := info.mdate, edate := info.edate }

def putBase (now : UInt32) (key : DataEntry) (versionCare : Bool) :
    Option Bytes → Option KdbItemMeta
  | none => some .zero
  | some old =>
    let item := KdbItem.decode old
    if item.isExpired now then some { item.info with version := 0 }
    else if versionCare ∧ key.dataMeta.version ≠ 0 ∧ key.dataMeta.version ≠ item.info.version then
      none
    else some item.info

/-- The record that a put leaves. A key that exists keeps its creation date. -/
def putItem (base : KdbItemMeta) (old : Option Bytes) (key value : DataEntry)
    (versionCare : Bool) (dates : Dates) : KdbItem where
  info :=
    { base with
      flag := value.dataMeta.flag
      cdate := if old.isSome then base.cdate else dates.cdate
      mdate := dates.mdate
      edate := dates.edate
      version := if versionCare then base.version + 1 else key.dataMeta.version }
  value := value.data

variable (bucket : KdbBucket)

def put (now : UInt32) (key value : DataEntry) (versionCare : Bool) (expireTime : UInt32) :
    KdbBucket × ReturnCode :=
  let old := bucket.lookup key.data
  match putBase now key versionCare old with
  | none => (bucket, .versionError)
  | some base =>
    let item := putItem base old key value versionCare
      (putDates now key.dataMeta versionCare expireTime)
    (bucket.insert key.data item.encode, .success)

def remove (key : DataEntry) (versionCare : Bool) : KdbBucket × ReturnCode :=
  match bucket.lookup key.data with
  | none => (bucket, .dataNotExist)
  | some old =>
    let item := KdbItem.decode old
    if versionCare ∧ key.dataMeta.version ≠ 0 ∧ key.dataMeta.version ≠ item.info.version then
      (bucket, .versionError)
    else (bucket.erase key.data, .success)

def filled (item : KdbItem) (keySize : Nat) (info : ItemMeta) : ItemMeta :=
  { info with
    flag := item.info.flag
    cdate := item.info.cdate
    edate := item.info.edate
    mdate := item.info.mdate
    version := item.info.version
    keysize := UInt16.ofNat keySize
    valsize := BitVec.ofNat 24 item.value.length }

def get (now : UInt32) (key value : DataEntry) : KdbBucket × ReturnCode × DataEntry × DataEntry :=
  match bucket.lookup key.data with
  | none => (bucket, .dataNotExist, key, value)
  | some old =>
    let item := KdbItem.decode old
    if item.isExpired now then ((bucket.remove key false).1, .dataExpired, key, value)
    else
      (bucket, .success, { key with dataMeta := filled item key.data.length key.dataMeta },
        { value.setData item.value with
          dataMeta := filled item key.data.length value.dataMeta })

/-! ### What the operations leave -/

theorem putBase_of_careless (now : UInt32) (key : DataEntry) (old : Option Bytes) :
    ∃ base, putBase now key false old = some base := by
  cases old with
  | none => exact ⟨_, rfl⟩
  | some old =>
    unfold putBase
    dsimp only
    by_cases expired : (KdbItem.decode old).isExpired now
    · rw [if_pos expired]
      exact ⟨_, rfl⟩
    · rw [if_neg expired, if_neg fun cared => absurd cared.1 Bool.false_ne_true]
      exact ⟨_, rfl⟩

theorem put_of_careless (now : UInt32) (key value : DataEntry) (expireTime : UInt32) :
    ∃ item : KdbItem,
      bucket.put now key value false expireTime =
        (bucket.insert key.data item.encode, .success) := by
  obtain ⟨base, agreed⟩ := putBase_of_careless now key (bucket.lookup key.data)
  unfold put
  dsimp only
  rw [agreed]
  exact ⟨_, rfl⟩

theorem remove_cases (key : DataEntry) (versionCare : Bool) :
    bucket.remove key versionCare = (bucket, .dataNotExist) ∨
      bucket.remove key versionCare = (bucket, .versionError) ∧ versionCare = true ∨
      bucket.remove key versionCare = (bucket.erase key.data, .success) := by
  unfold remove
  cases bucket.lookup key.data with
  | none => exact .inl rfl
  | some old =>
    dsimp only
    split_ifs with ne
    · exact .inr (.inl ⟨rfl, ne.1⟩)
    · exact .inr (.inr rfl)

end KdbBucket

end Tair.Kdb
