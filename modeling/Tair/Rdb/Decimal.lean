/-
Decimal texts. An integer comes back from its text, so integers with the same text are the same
and a text is kept as an integer in one way only.
-/

import Tair.Rdb.StringCommands

namespace Tair.Rdb

def digitBytes (value : Nat) : Bytes :=
  (Nat.toDigits 10 value).map fun digit => UInt8.ofNat digit.toNat

theorem ll2string_of_nonneg {value : Int} (nonneg : 0 ≤ value) :
    ll2string value = digitBytes value.natAbs := if_neg (not_lt.mpr nonneg)

theorem ll2string_of_neg {value : Int} (negative : value < 0) :
    ll2string value = 45 :: digitBytes value.natAbs := if_pos negative

theorem digit_bounds {digit : Char} {value : Nat} (member : digit ∈ Nat.toDigits 10 value) :
    48 ≤ digit.toNat ∧ digit.toNat ≤ 57 := by
  have test := Nat.isDigit_of_mem_toDigits (by decide) (by decide) member
  rw [Char.isDigit, Bool.and_eq_true, decide_eq_true_eq, decide_eq_true_eq] at test
  exact ⟨test.1, test.2⟩

theorem toNat_digit {digit : Char} {value : Nat} (member : digit ∈ Nat.toDigits 10 value) :
    (UInt8.ofNat digit.toNat).toNat = digit.toNat := by
  have bounds := digit_bounds member
  exact Nat.mod_eq_of_lt (by omega)

theorem isDigit_of_mem_digitBytes {byte : UInt8} {value : Nat}
    (member : byte ∈ digitBytes value) : isDigit byte = true := by
  obtain ⟨digit, inDigits, rfl⟩ := List.mem_map.mp member
  have bounds := digit_bounds inDigits
  have same := toNat_digit inDigits
  unfold isDigit
  rw [decide_eq_true_eq, UInt8.le_iff_toNat_le, UInt8.le_iff_toNat_le, same]
  exact bounds

theorem digitBytes_ne_nil (value : Nat) : digitBytes value ≠ [] := fun empty =>
  Nat.toDigits_ne_nil (List.map_eq_nil_iff.mp empty)

@[simp]
theorem digitsValue_digitBytes (value : Nat) : digitsValue (digitBytes value) = value := by
  unfold digitsValue digitBytes
  rw [List.foldl_map]
  refine Eq.trans ?_ Nat.ofDigitChars_ten_toDigits
  refine List.foldl_ext _ _ _ fun sofar digit member => ?_
  rw [toNat_digit member]
  rfl

theorem head_digitBytes (value : Nat) : ∃ first rest, digitBytes value = first :: rest ∧
    first ≠ 45 ∧ first ≠ 43 ∧ isSpace first = false := by
  obtain ⟨first, rest, whole⟩ := List.exists_cons_of_ne_nil (digitBytes_ne_nil value)
  have digit : isDigit first = true :=
    isDigit_of_mem_digitBytes (whole ▸ List.mem_cons_self)
  refine ⟨first, rest, whole, ?_, ?_, ?_⟩
  · rintro rfl
    exact absurd digit (by decide)
  · rintro rfl
    exact absurd digit (by decide)
  · unfold isDigit at digit
    unfold isSpace
    rw [decide_eq_true_eq] at digit
    rw [decide_eq_false_iff_not]
    have low := UInt8.le_iff_toNat_le.mp digit.1
    rintro (rfl | ⟨_, high⟩)
    · exact absurd low (by decide)
    · have high := UInt8.le_iff_toNat_le.mp high
      have apart : (48 : UInt8).toNat > (13 : UInt8).toNat := by decide
      omega

theorem ll2string_ne_nil (value : Int) : ll2string value ≠ [] := by
  rcases lt_or_ge value 0 with negative | nonneg
  · rw [ll2string_of_neg negative]
    exact List.cons_ne_nil _ _
  · rw [ll2string_of_nonneg nonneg]
    exact digitBytes_ne_nil _

theorem read_ll2string (value : Int) :
    (if (ll2string value).head? = some 45 then -(digitsValue (ll2string value).tail : Int)
      else digitsValue (ll2string value)) = value := by
  rcases lt_or_ge value 0 with negative | nonneg
  · rw [ll2string_of_neg negative, List.head?_cons, if_pos rfl, List.tail_cons,
      digitsValue_digitBytes]
    omega
  · rw [ll2string_of_nonneg nonneg]
    obtain ⟨first, rest, whole, sign, _⟩ := head_digitBytes value.natAbs
    rw [if_neg, digitsValue_digitBytes]
    · omega
    · rw [whole]
      exact fun same => sign (Option.some.inj same)

theorem ll2string_injective : Function.Injective ll2string := by
  intro left right same
  rw [← read_ll2string left, ← read_ll2string right, same]

theorem representedLong_ll2string {value : Int} (low : -2 ^ 63 ≤ value)
    (high : value < 2 ^ 63) : representedLong (ll2string value) = some value := by
  unfold representedLong
  dsimp only
  rw [read_ll2string, if_pos ⟨low, high, rfl⟩]

theorem strtoll_of_represented {text : Bytes} {value : Int}
    (represented : representedLong text = some value) : strtoll text = some value := by
  obtain ⟨⟨low, high, wrote⟩, same⟩ := Option.ite_none_right_eq_some.mp represented
  rw [Option.some.inj same] at low high wrote
  subst wrote
  unfold strtoll
  rw [if_neg (ll2string_ne_nil value)]
  rcases lt_or_ge value 0 with negative | nonneg
  · have body : splitSign ((ll2string value).dropWhile isSpace) =
        (true, digitBytes value.natAbs) := by
      rw [ll2string_of_neg negative]
      rfl
    rw [body]
    dsimp only
    rw [if_pos rfl, digitsValue_digitBytes]
    have back : -(value.natAbs : Int) = value := by omega
    rw [back]
    exact if_pos ⟨digitBytes_ne_nil _,
      List.all_eq_true.mpr fun byte => isDigit_of_mem_digitBytes, low, high⟩
  · have body : splitSign ((ll2string value).dropWhile isSpace) =
        (false, digitBytes value.natAbs) := by
      rw [ll2string_of_nonneg nonneg]
      obtain ⟨first, rest, whole, minus, plus, space⟩ := head_digitBytes value.natAbs
      rw [whole, List.dropWhile_cons_of_neg (by rw [space]; exact Bool.false_ne_true)]
      exact (if_neg minus).trans (if_neg plus)
    rw [body]
    dsimp only
    rw [if_neg Bool.false_ne_true, digitsValue_digitBytes]
    have back : (value.natAbs : Int) = value := by omega
    rw [back]
    exact if_pos ⟨digitBytes_ne_nil _,
      List.all_eq_true.mpr fun byte => isDigit_of_mem_digitBytes, low, high⟩

/-- A string that is kept as an integer exactly when its text is that of a `long`. -/
def StringObject.Encoded : StringObject → Prop
  | .raw bytes => representedLong bytes = none
  | .int value => -2 ^ 63 ≤ value ∧ value < 2 ^ 63

theorem encoded_tryObjectEncoding (text : Bytes) :
    (StringObject.raw text).tryObjectEncoding.Encoded := by
  cases represented : representedLong text with
  | none =>
    simp only [StringObject.tryObjectEncoding, represented]
    exact represented
  | some value =>
    simp only [StringObject.tryObjectEncoding, represented]
    obtain ⟨⟨low, high, _⟩, same⟩ := Option.ite_none_right_eq_some.mp represented
    rw [Option.some.inj same] at low high
    exact ⟨low, high⟩

theorem StringObject.Encoded.represented {object : StringObject} (encoded : object.Encoded) :
    representedLong object.decoded = object.asLong := by
  cases object with
  | raw bytes => rfl
  | int value => exact representedLong_ll2string encoded.1 encoded.2

end Tair.Rdb
