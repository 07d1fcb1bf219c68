/-
Numbers as bytes, lowest or highest byte first.
-/

import Mathlib

namespace Tair.Library

def leBytes : Nat → Nat → List UInt8
  | 0, _ => []
  | count + 1, value => UInt8.ofNat value :: leBytes count (value / 256)

def leValue : List UInt8 → Nat
  | [] => 0
  | byte :: rest => byte.toNat + 256 * leValue rest

@[simp]
theorem leBytes_length (count value : Nat) : (leBytes count value).length = count := by
  induction count generalizing value with
  | zero => rfl
  | succ count ih => rw [leBytes, List.length_cons, ih]

theorem leValue_leBytes (count value : Nat) :
    leValue (leBytes count value) = value % 256 ^ count := by
  induction count generalizing value with
  | zero => rw [leBytes, leValue, Nat.pow_zero, Nat.mod_one]
  | succ count ih =>
    have split : value % 256 ^ (count + 1) = value % 256 + 256 * (value / 256 % 256 ^ count) := by
      rw [Nat.pow_succ', Nat.mod_mul]
    rw [leBytes, leValue, ih, UInt8.toNat_ofNat', split]

theorem leValue_leBytes_of_lt {count value : Nat} (fits : value < 256 ^ count) :
    leValue (leBytes count value) = value := by
  rw [leValue_leBytes, Nat.mod_eq_of_lt fits]

/-- The bytes of a number, highest byte first. -/
def beBytes (count value : Nat) : List UInt8 := (leBytes count value).reverse

def beValue (bytes : List UInt8) : Nat := leValue bytes.reverse

@[simp]
theorem beBytes_length (count value : Nat) : (beBytes count value).length = count := by
  rw [beBytes, List.length_reverse, leBytes_length]

theorem beValue_beBytes_of_lt {count value : Nat} (fits : value < 256 ^ count) :
    beValue (beBytes count value) = value := by
  rw [beValue, beBytes, List.reverse_reverse, leValue_leBytes_of_lt fits]

/-- The number at an offset of a structure in memory. -/
def fieldAt (memory : List UInt8) (offset count : Nat) : Nat :=
  leValue ((memory.drop offset).take count)

end Tair.Library
