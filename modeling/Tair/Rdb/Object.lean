/-
The objects of the redis engine. A string is kept as its bytes, or as an integer when its decimal
text is exactly these bytes. Lists, sets and hashes have a compact encoding and a general one.
-/

import Tair.Library.TwoEnded

namespace Tair.Rdb

open Tair.Library

abbrev Bytes := List UInt8

/-- What ends a command: an assertion, an `int` that does not hold its value, a division by
zero, a read through a null pointer, and one through a pointer that is an integer or points to
something else. -/
inductive Fault where
  | assertFailed
  | intOverflow
  | divisionByZero
  | nullPointer
  | wildPointer
deriving DecidableEq, Repr

/-- An `int`. -/
def toInt (value : Int) : Except Fault Int :=
  if -2 ^ 31 ≤ value ∧ value < 2 ^ 31 then .ok value else .error .intOverflow

theorem toInt_of_fits {value : Int} (low : -2 ^ 31 ≤ value) (high : value < 2 ^ 31) :
    toInt value = .ok value := if_pos ⟨low, high⟩

theorem toInt_of_long {value : Int} (long : 2 ^ 31 ≤ value) :
    toInt value = .error .intOverflow := if_neg fun fits => fits.2.not_ge long

/-! ### Strings -/

inductive StringObject where
  | raw (bytes : Bytes)
  | int (value : Int)
deriving DecidableEq, Repr

def ll2string (value : Int) : Bytes :=
  let digits := (Nat.toDigits 10 value.natAbs).map (fun digit => UInt8.ofNat digit.toNat)
  if value < 0 then 45 :: digits else digits

/-- The number that the digits of a text stand for, which means nothing for other texts. -/
def digitsValue (text : Bytes) : Nat :=
  text.foldl (fun value digit => 10 * value + (digit.toNat - 48)) 0

/-- `isStringRepresentableAsLongLong`. The text has to come back. -/
def representedLong (text : Bytes) : Option Int :=
  let value : Int := if text.head? = some 45 then -digitsValue text.tail else digitsValue text
  if -2 ^ 63 ≤ value ∧ value < 2 ^ 63 ∧ ll2string value = text then some value else none

namespace StringObject

def tryObjectEncoding : StringObject → StringObject
  | .raw bytes =>
    match representedLong bytes with
    | some value => .int value
    | none => .raw bytes
  | .int value => .int value

/-- `isObjectRepresentableAsLongLong`. -/
def asLong : StringObject → Option Int
  | .raw bytes => representedLong bytes
  | .int value => some value

/-- The bytes of `getDecodedObject`. -/
def decoded : StringObject → Bytes
  | .raw bytes => bytes
  | .int value => ll2string value

theorem ll2string_of_represented {text : Bytes} {value : Int}
    (represented : representedLong text = some value) : ll2string value = text := by
  obtain ⟨fits, same⟩ := Option.ite_none_right_eq_some.mp represented
  exact Option.some.inj same ▸ fits.2.2

@[simp]
theorem decoded_tryObjectEncoding (object : StringObject) :
    object.tryObjectEncoding.decoded = object.decoded := by
  cases object with
  | int value => rfl
  | raw bytes =>
    change (match representedLong bytes with
      | some value => StringObject.int value
      | none => StringObject.raw bytes).decoded = bytes
    cases represented : representedLong bytes with
    | none => rfl
    | some value => exact ll2string_of_represented represented

end StringObject

/-! ### Containers -/

inductive RedisList where
  | ziplist (items : List Bytes)
  | linkedlist (items : List StringObject)
deriving DecidableEq, Repr

namespace RedisList

def items : RedisList → List Bytes
  | .ziplist items => items
  | .linkedlist items => items.map StringObject.decoded

end RedisList

/-- A set of integers in ascending order, or a table of strings. The table has no particular
order here. -/
inductive RedisSet where
  | intset (members : List Int)
  | table (members : List StringObject)
deriving DecidableEq, Repr

/-- A field of a hash table. A string has a time stamp in its header, an integer has none. -/
inductive HashField where
  | raw (bytes : Bytes) (timestamp : UInt32)
  | int (value : Int)
deriving DecidableEq, Repr

structure ZipmapEntry where
  field : Bytes
  timestamp : UInt32
  value : Bytes
deriving DecidableEq, Repr

inductive RedisHash where
  | zipmap (entries : List ZipmapEntry)
  | table (entries : List (HashField × StringObject))
deriving DecidableEq, Repr

/-- An object. The scores of sorted sets are of any type here. A sorted set is kept as its
skip list. -/
inductive Robj (σ : Type) where
  | string (value : StringObject)
  | list (value : RedisList)
  | set (value : RedisSet)
  | zset (nodes : List (StringObject × σ))
  | hash (value : RedisHash)
deriving DecidableEq, Repr

structure Limits where
  listMaxZiplistEntries : Nat
  listMaxZiplistValue : Nat
  listMaxSize : Int
deriving Repr

structure Settings extends Limits where
  hashMaxZipmapEntries : Nat
  hashMaxZipmapValue : Nat
  hashMaxSize : Int
  setMaxIntsetEntries : Nat
  setMaxSize : Int
  zsetMaxSize : Int
deriving Repr

/-- A size compared with a limit as `unsigned long`, so that a negative limit is none. -/
def fitsLimit (size : Nat) (limit : Int) : Bool := limit < 0 ∨ (size : Int) ≤ limit

end Tair.Rdb
