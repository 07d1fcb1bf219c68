/-
Keys and values as the engines get them. An entry has bytes and meta data; the area is
merged into the bytes of a key before it reaches an engine.
-/

import Tair.Library.Bytes

namespace Tair.Common

open Tair.Library

def tairMaxKeySize : Nat := 1024

def tairMaxDataSize : Nat := 1000000

def tairMaxAreaCount : Nat := 1024

/-- A key with its area in front. The servers turn away keys that are empty or have
`TAIR_MAX_KEY_SIZE` bytes or more before they merge the area. -/
def MergedKey (key : List UInt8) : Prop := 2 < key.length ∧ key.length < tairMaxKeySize + 2

instance (key : List UInt8) : Decidable (MergedKey key) :=
  inferInstanceAs (Decidable (_ ∧ _))

/-- `item_meta_info`. -/
structure ItemMeta where
  magic : UInt16
  checksum : UInt16
  keysize : UInt16
  version : UInt16
  padsize : UInt32
  valsize : BitVec 24
  flag : UInt8
  cdate : UInt32
  mdate : UInt32
  edate : UInt32
deriving DecidableEq, Repr, Inhabited

namespace ItemMeta

/-- `sizeof(item_meta_info)`. -/
def size : Nat := 28

/-- The structure in memory. The 24 bits of `valsize` and the 8 of `flag` share a word. -/
def ofBytes (memory : List UInt8) : ItemMeta where
  magic := UInt16.ofNat (fieldAt memory 0 2)
  checksum := UInt16.ofNat (fieldAt memory 2 2)
  keysize := UInt16.ofNat (fieldAt memory 4 2)
  version := UInt16.ofNat (fieldAt memory 6 2)
  padsize := UInt32.ofNat (fieldAt memory 8 4)
  valsize := BitVec.ofNat 24 (fieldAt memory 12 3)
  flag := UInt8.ofNat (fieldAt memory 15 1)
  cdate := UInt32.ofNat (fieldAt memory 16 4)
  mdate := UInt32.ofNat (fieldAt memory 20 4)
  edate := UInt32.ofNat (fieldAt memory 24 4)

end ItemMeta

structure DataEntry where
  data : List UInt8
  area : Nat
  hasMerged : Bool
  hasMetaMerged : Bool
  serverFlag : Nat
  dataMeta : ItemMeta
deriving DecidableEq, Repr, Inhabited

namespace DataEntry

/-- Replacing the bytes forgets that an area was merged and which. -/
def setData (entry : DataEntry) (data : List UInt8) : DataEntry :=
  { entry with data, area := 0, hasMerged := false }

def mergeArea (entry : DataEntry) (area : Nat) : DataEntry :=
  if entry.hasMerged then entry
  else if entry.data = [] then entry
  else { entry.setData (UInt8.ofNat area :: UInt8.ofNat (area / 256) :: entry.data) with
    area, hasMerged := true }

end DataEntry

end Tair.Common
