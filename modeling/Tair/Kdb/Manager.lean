/-
The kdb engine: a map from bucket numbers to buckets. An operation on a bucket that is not
open fails.
-/

import Tair.DataServer.WritePath
import Tair.Kdb.Bucket

namespace Tair.Kdb

open Tair.Common Tair.DataServer

abbrev KdbManager := AList (fun _ : Int => KdbBucket)

namespace KdbManager

variable (manager : KdbManager)

def onBucket {ρ : Type} (bucketNumber : Int)
    (operation : KdbBucket → KdbBucket × ρ) (failed : ρ) : KdbManager × ρ :=
  match manager.lookup bucketNumber with
  | none => (manager, failed)
  | some bucket =>
    let (changed, result) := operation bucket
    (manager.insert bucketNumber changed, result)

def put (now : UInt32) (bucketNumber : Int) (key value : DataEntry)
    (versionCare : Bool) (expireTime : Int) : KdbManager × ReturnCode :=
  manager.onBucket bucketNumber
    (fun bucket => bucket.put now key value versionCare
      (UInt32.ofNat (expireTime % 2 ^ 32).toNat)) .failed

def get (now : UInt32) (bucketNumber : Int) (key value : DataEntry) :
    KdbManager × ReturnCode × DataEntry × DataEntry :=
  manager.onBucket bucketNumber (fun bucket => bucket.get now key value) (.failed, key, value)

def remove (bucketNumber : Int) (key : DataEntry) (versionCare : Bool) : KdbManager × ReturnCode :=
  manager.onBucket bucketNumber (fun bucket => bucket.remove key versionCare) .failed

/-- Buckets that are open already stay as they are. The files of new ones are created. -/
def initBuckets (buckets : List Int) : KdbManager :=
  buckets.foldl (fun opened bucketNumber =>
    if (opened.lookup bucketNumber).isSome then opened else opened.insert bucketNumber ∅) manager

def closeBuckets (buckets : List Int) : KdbManager :=
  buckets.foldl (fun closed bucketNumber => closed.erase bucketNumber) manager

variable {ρ : Type} {manager : KdbManager} {bucketNumber : Int} {bucket : KdbBucket}

theorem onBucket_of_open (isOpen : manager.lookup bucketNumber = some bucket)
    (op : KdbBucket → KdbBucket × ρ) (failed : ρ) :
    manager.onBucket bucketNumber op failed =
      (manager.insert bucketNumber (op bucket).1, (op bucket).2) := by
  unfold onBucket
  rw [isOpen]

theorem onBucket_of_closed (closed : manager.lookup bucketNumber = none)
    (op : KdbBucket → KdbBucket × ρ) (failed : ρ) :
    manager.onBucket bucketNumber op failed = (manager, failed) := by
  unfold onBucket
  rw [closed]

theorem isSome_lookup_onBucket (manager : KdbManager) (bucketNumber other : Int)
    (op : KdbBucket → KdbBucket × ρ) (failed : ρ) :
    ((manager.onBucket bucketNumber op failed).1.lookup other).isSome =
      (manager.lookup other).isSome := by
  cases found : manager.lookup bucketNumber with
  | none => rw [onBucket_of_closed found]
  | some bucket =>
    rw [onBucket_of_open found]
    by_cases same : other = bucketNumber
    · subst same
      rw [AList.lookup_insert, found]
      rfl
    · rw [AList.lookup_insert_ne same]

end KdbManager

def kdbStorage : StorageManager UInt32 KdbManager where
  put now manager bucketNumber key value versionCare expireTime :=
    .ok (manager.put now bucketNumber key value versionCare expireTime)
  remove _ manager bucketNumber key versionCare :=
    .ok (manager.remove bucketNumber key versionCare)

end Tair.Kdb
