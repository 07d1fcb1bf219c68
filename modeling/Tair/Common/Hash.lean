/-
The hash of keys, mixed four bytes at a time.
-/

import Mathlib

namespace Tair.Common

def mixWord : UInt32 := 0x5bd1e995

def mixTail (widen : UInt8 → UInt32) (h : UInt32) : List UInt8 → UInt32
  | [first] => (h ^^^ widen first) * mixWord
  | [first, second] => (h ^^^ (widen second <<< 8) ^^^ widen first) * mixWord
  | [first, second, third] =>
    (h ^^^ (widen third <<< 16) ^^^ (widen second <<< 8) ^^^ widen first) * mixWord
  | _ => h

def mixBytes (widen : UInt8 → UInt32) (h : UInt32) : List UInt8 → UInt32
  | b0 :: b1 :: b2 :: b3 :: rest =>
    let word := b0.toUInt32 ||| (b1.toUInt32 <<< 8) ||| (b2.toUInt32 <<< 16) |||
      (b3.toUInt32 <<< 24)
    let k := word * mixWord
    let k := (k ^^^ (k >>> 24)) * mixWord
    mixBytes widen ((h * mixWord) ^^^ k) rest
  | short => mixTail widen h short

def murMur (widen : UInt8 → UInt32) (seed : UInt32) (key : List UInt8) : UInt32 :=
  let h := mixBytes widen (seed ^^^ UInt32.ofNat key.length) key
  let h := (h ^^^ (h >>> 13)) * mixWord
  h ^^^ (h >>> 15)

/-- The servers' hash takes the last bytes of a key as signed ones. -/
def murMurHash2 (key : List UInt8) (seed : UInt32) : UInt32 :=
  murMur (fun byte => byte.toInt8.toInt32.toUInt32) seed key

def murMurHash (key : List UInt8) : UInt32 := murMurHash2 key 97

end Tair.Common
