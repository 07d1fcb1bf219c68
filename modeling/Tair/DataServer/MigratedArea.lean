/-
The area in a migrated key. The two bytes that `merge_area` puts in front of a key are read back
as signed characters, so the area comes back only if its low byte is not negative.
-/

import Tair.DataServer.Mupdate

namespace Tair.DataServer

open Tair.Common (DataEntry ReturnCode tairMaxAreaCount)

/-- `data_entry::decode_area`: the area that it returns and stores, and the bytes that it leaves. -/
def decodeArea (key : DataEntry) : Except Common.Fault (Int × List UInt8) := do
  let area ← decodedArea key
  .ok (area, if key.hasMerged then key.data.drop 2 else key.data)

theorem signedArea_iff : ∀ area < tairMaxAreaCount,
    signedArea (UInt8.ofNat area) (UInt8.ofNat (area / 256)) = area ↔ area % 256 < 128 := by
  decide +kernel

section Keys

variable {key : DataEntry} {area : Nat}

section

variable (apart : key.hasMerged = false) (here : key.data ≠ [])

include apart here

theorem mergeArea_eq :
    key.mergeArea area =
      { key.setData (UInt8.ofNat area :: UInt8.ofNat (area / 256) :: key.data) with
        area, hasMerged := true } := by
  unfold DataEntry.mergeArea
  rw [apart, if_neg Bool.false_ne_true, if_neg here]

theorem decodedArea_mergeArea :
    decodedArea (key.mergeArea area) =
      .ok (signedArea (UInt8.ofNat area) (UInt8.ofNat (area / 256))) := by
  obtain ⟨first, rest, bytes⟩ := List.exists_cons_of_ne_nil here
  rw [mergeArea_eq apart here, bytes]
  rfl

theorem decodeArea_mergeArea :
    decodeArea (key.mergeArea area) =
      .ok (signedArea (UInt8.ofNat area) (UInt8.ofNat (area / 256)), key.data) := by
  unfold decodeArea
  rw [decodedArea_mergeArea apart here, mergeArea_eq apart here]
  rfl

end

theorem decodeArea_of_merged {found : Int} {bytes : List UInt8} (merged : key.hasMerged = true)
    (here : key.data ≠ []) (decoded : decodeArea (key.mergeArea area) = .ok (found, bytes)) :
    bytes ≠ key.data := by
  have same : key.mergeArea area = key := by
    unfold DataEntry.mergeArea
    rw [if_pos merged]
  rw [same, decodeArea] at decoded
  cases read : decodedArea key with
  | error fault =>
    rw [read] at decoded
    cases decoded
  | ok area =>
    rw [read] at decoded
    dsimp only [bind, Except.bind] at decoded
    rw [if_pos merged] at decoded
    cases decoded
    intro kept
    have shorter := congrArg List.length kept
    have pos := List.length_pos_iff.mpr here
    rw [List.length_drop] at shorter
    omega

end Keys

/-- The receiver of a migration gives this area to the engine with the key. -/
def AccountsFor (key : DataEntry) (area : Nat) : Prop :=
  ∀ {τ σ : Type} (engine : StorageManager τ σ) (clock : τ) (store : σ) (value : DataEntry),
    keySizeFits key → dataSizeFits value →
      engine.directPut clock store key value =
          engine.put clock store area { key with area } value false 0 ∧
        engine.directRemove clock store key =
          (do
            let (after, rc) ← engine.remove clock store area key false
            .ok (after, if rc = .dataNotExist then .success else rc))

theorem accountsFor_of_decodedArea {key : DataEntry} {area : Nat}
    (decoded : decodedArea key = .ok (area : Int)) : AccountsFor key area := by
  intro τ σ engine clock store value keyFits valueFits
  constructor
  · unfold StorageManager.directPut
    rw [if_neg (not_not.mpr keyFits), if_neg (not_not.mpr valueFits), decoded]
    rfl
  · unfold StorageManager.directRemove
    rw [if_neg (not_not.mpr keyFits), decoded]
    rfl

/-- The area comes back exactly from a key that was not merged before, and if the low byte of the
area is below 128. -/
theorem area_back_iff (key : DataEntry) (area : Nat) (small : area < tairMaxAreaCount)
    (present : key.data ≠ []) :
    (decodeArea (key.mergeArea area) = .ok ((area : Int), key.data) ∧
        AccountsFor (key.mergeArea area) area) ↔
      key.hasMerged = false ∧ area % 256 < 128 := by
  constructor
  · intro back
    obtain ⟨decoded, -⟩ := back
    cases merged : key.hasMerged with
    | true => exact absurd rfl (decodeArea_of_merged merged present decoded)
    | false =>
      rw [decodeArea_mergeArea merged present] at decoded
      injection decoded with pair
      injection pair with same
      exact ⟨rfl, (signedArea_iff area small).mp same⟩
  · intro condition
    obtain ⟨apart, low⟩ := condition
    have same := (signedArea_iff area small).mpr low
    constructor
    · rw [decodeArea_mergeArea apart present, same]
    · apply accountsFor_of_decodedArea
      rw [decodedArea_mergeArea apart present, same]

/-- The area 300 of a one byte key. -/
theorem area_back_of_low_byte :
    decodeArea (DataEntry.mergeArea { (default : DataEntry) with data := [7] } 300) =
      .ok (300, [7]) :=
  ((area_back_iff { (default : DataEntry) with data := [7] } 300 (by decide) (by decide)).mpr
    (by decide)).1

/-- The area 128 is read back as -128. -/
theorem area_lost_of_high_byte :
    (128 < tairMaxAreaCount) ∧
      decodeArea (DataEntry.mergeArea { (default : DataEntry) with data := [7] } 128) =
        .ok (-128, [7]) := by
  decide +kernel

end Tair.DataServer
