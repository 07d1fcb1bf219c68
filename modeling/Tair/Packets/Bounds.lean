/-
Decoders that stay inside the buffer. Such a decoder looks at what is left before every read, or
reads no more than the header promises. Vectors, texts and entries with meta data are read on
trust, and every class that has one can be made to misuse the buffer.
-/

import Tair.Packets.Classes

namespace Tair.Packets

open Tair.Library Tair.Library.Reader

/-- A read of fixed width, out of what is known to be there. -/
def spend (width known : Nat) : Option Nat := if width ≤ known then some (known - width) else none

/-- How many bytes are still known to be there after a careful read, where as many were known
before it. -/
def Atom.keeps : Atom → Nat → Option Nat
  | .int8, known => spend 1 known
  | .int16, known => spend 2 known
  | .int32, known => spend 4 known
  | .int64, known => spend 8 known
  | .checked16, known => some (known - 2)
  | .checked32, known => some (known - 4)
  | .checked64, known => some (known - 8)
  | .double, known => some (known - 8)
  | .entry, _ => some 0
  | _, _ => none

def keepsAll : List (Atom × Name) → Nat → Option Nat
  | [], known => some known
  | item :: others, known => (item.1.keeps known).bind (keepsAll others)

def PacketClass.bounded (packetClass : PacketClass) : Bool :=
  match packetClass.shape with
  | .plain items ending => (keepsAll items packetClass.least).isSome && decide (ending ≠ .abort)
  | .counted items count _ row =>
    ((keepsAll items packetClass.least).bind count.1.keeps).isSome && (keepsAll row 0).isSome
  | .shaped _ => false

/-! ### Careful reads -/

section Careful

variable {α : Type} {known left : Nat}

theorem careful_spend {width : Nat} (next : List UInt8 → α) (kept : spend width known = some left) :
    (Reader.take width fun bytes => Reader.done (next bytes)).Careful known left := by
  unfold spend at kept
  split_ifs at kept with enough
  cases kept
  exact careful_take enough fun bytes => careful_done _ _

theorem careful_checked (width : Nat) (next : List UInt8 → α) :
    (Reader.need width (Reader.take width fun bytes => Reader.done (next bytes))).Careful known
      (known - width) := by
  apply careful_need
  apply careful_take (Nat.le_max_right _ _)
  intro bytes
  have same : max known width - width = known - width := by omega
  rw [same]
  exact careful_done _ _

theorem careful_getDataEntry : getDataEntry.Careful known 0 := by
  apply careful_need
  apply (careful_spend _ (if_pos (Nat.le_max_right _ _))).bind
  intro length
  split_ifs with negative
  · exact careful_refuse _ _
  · apply careful_need
    have copies : (readBytes (signed length)).Careful
        (max (max known 4 - 4) (signed length).toNat) 0 := by
      apply careful_copy (by omega)
      exact fun bytes => (careful_done bytes _).mono (Nat.zero_le _)
    apply copies.bind
    intro bytes
    cases bytes with
    | none => exact careful_refuse _ _
    | some bytes => exact careful_done _ _

theorem Atom.careful {atom : Atom} (kept : atom.keeps known = some left) :
    atom.read.Careful known left := by
  cases atom with
  | int8 => exact (careful_spend _ kept).map _
  | int16 => exact (careful_spend _ kept).map _
  | int32 => exact (careful_spend _ kept).map _
  | int64 => exact (careful_spend _ kept).map _
  | checked16 =>
    cases kept
    exact (careful_checked 2 _).map _
  | checked32 =>
    cases kept
    exact (careful_checked 4 _).map _
  | checked64 =>
    cases kept
    exact (careful_checked 8 _).map _
  | double =>
    cases kept
    exact (careful_checked 8 _).map _
  | entry =>
    cases kept
    exact careful_getDataEntry.map _
  | looseEntry => cases kept
  | vector => cases kept
  | record => cases kept
  | text capacity => cases kept
  | string => cases kept
  | blob size => cases kept
  | sized => cases kept
  | dllName => cases kept

theorem careful_item {atom : Atom} {name : Name} {next : Value → Layout} {between : Nat}
    (kept : atom.keeps known = some between)
    (careful : ∀ value, (next value).read.Careful between left) :
    (Layout.item atom name next).read.Careful known left :=
  (Atom.careful kept).bind fun value =>
    (careful value).bind fun _ => careful_done _ _

theorem careful_fields {items : List (Atom × Name)} {rest : Unit → Layout} {between : Nat}
    (kept : keepsAll items known = some between) (careful : (rest ()).read.Careful between left) :
    (Layout.fields items rest).read.Careful known left := by
  induction items generalizing known with
  | nil =>
    cases kept
    exact careful
  | cons item others ih =>
    rw [keepsAll, Option.bind_eq_some_iff] at kept
    obtain ⟨after, first, kept⟩ := kept
    exact careful_item first fun _ => ih kept

theorem careful_rows {row : List (Atom × Name)} {rest : Unit → Layout} {kept : Nat}
    (careful : keepsAll row 0 = some kept) (after : (rest ()).read.Careful 0 0) (count : Nat) :
    (Layout.rows count row rest).read.Careful 0 0 := by
  induction count with
  | zero => exact after
  | succ count ih =>
    apply careful_fields careful
    intro bytes _
    exact ih bytes (Nat.zero_le _)

end Careful

theorem PacketClass.careful_layout {packetClass : PacketClass}
    (bounded : packetClass.bounded = true) :
    packetClass.shape.layout.read.Careful packetClass.least 0 := by
  unfold PacketClass.bounded at bounded
  split at bounded
  next items ending isShape =>
    rw [isShape]
    obtain ⟨kept, ends⟩ := Bool.and_eq_true_iff.mp bounded
    obtain ⟨left, kept⟩ := Option.isSome_iff_exists.mp kept
    apply careful_fields kept
    cases ending with
    | accept => exact (careful_done _ _).mono (Nat.zero_le _)
    | refuse => exact careful_refuse _ _
    | abort => exact absurd rfl (of_decide_eq_true ends)
  next items count counting row isShape =>
    rw [isShape]
    obtain ⟨kept, keptRow⟩ := Bool.and_eq_true_iff.mp bounded
    obtain ⟨left, kept⟩ := Option.isSome_iff_exists.mp kept
    obtain ⟨leftRow, keptRow⟩ := Option.isSome_iff_exists.mp keptRow
    obtain ⟨between, first, counts⟩ := Option.bind_eq_some_iff.mp kept
    have ending : Layout.done.read.Careful 0 0 := careful_done [] 0
    apply careful_fields first
    apply careful_item counts
    intro value bytes _
    exact @careful_rows row (fun _ => .done) leftRow keptRow ending _ bytes (Nat.zero_le _)
  · cases bounded

theorem PacketClass.careful_decode {packetClass : PacketClass}
    (bounded : packetClass.bounded = true) (dataLen : Nat) :
    (packetClass.decode dataLen).Careful dataLen 0 := by
  apply Reader.Careful.map
  unfold PacketClass.read
  split_ifs with short
  · exact careful_refuse _ _
  · intro bytes enough
    exact PacketClass.careful_layout bounded bytes (by omega)

/-! ### Bodies that other classes can not bear -/

def zeros (count : Nat) : List UInt8 := List.replicate count 0

def one : List UInt8 := [0, 0, 0, 1]

def minusOne : List UInt8 := [255, 255, 255, 255]

/-- For every class that is not bounded, a body that its `decode` misuses the buffer with. -/
def misusing : List (List Nat × List UInt8) :=
  [([16, 17, 7, 1301, 2227, 2231, 2232, 2211, 2236, 2216, 2219, 2222, 2225, 2240, 2234, 2235, 3000],
    []),
   ([4002], zeros 7),
   ([102, 1201], zeros 8),
   ([1, 2149, 4000, 4001], zeros 9),
   ([4014, 4012], zeros 11),
   ([1009, 9], zeros 12),
   ([11, 4010], zeros 13),
   ([4019, 4021, 4020, 4022, 4027, 4028, 4006, 4009, 4011, 4013, 4016], zeros 17),
   ([104], zeros 20),
   ([4003, 4004, 4005, 4007, 4008, 4017], zeros 21),
   ([4015], zeros 25),
   ([4018], zeros 29),
   ([2114, 2156], zeros 3 ++ minusOne),
   ([2148], zeros 3 ++ (one ++ minusOne)),
   ([101, 1104], zeros 4 ++ (one ++ minusOne)),
   ([2113], zeros 7 ++ (one ++ minusOne)),
   ([2200, 2202, 2230, 2207, 2213, 2217, 2220], zeros 10 ++ (one ++ minusOne)),
   ([2101, 2103, 2104, 2105, 2109], zeros 13 ++ (one ++ minusOne)),
   ([2251], zeros 14 ++ (one ++ minusOne)),
   ([2157, 2158, 2159, 2160], zeros 17 ++ (one ++ minusOne)),
   ([2, 3, 1002, 1003, 1302, 1106], one ++ minusOne),
   ([1102], zeros 12 ++ (one ++ minusOne)),
   ([1103], zeros 8 ++ (minusOne ++ zeros 8)),
   ([2146, 2147], zeros 7 ++ (one ++ (zeros 4 ++ (one ++ minusOne)))),
   ([2248], zeros 8 ++ (one ++ (zeros 2 ++ (one ++ minusOne))))]

def Reading.isMisused {α : Type} : Reading α → Bool
  | .misused _ => true
  | _ => false

def PacketClass.misusedBy (packetClass : PacketClass) (body : List UInt8) : Bool :=
  Reading.isMisused ((packetClass.decode body.length).run body)

theorem misusing_factory :
    factory.all (fun known => known.2.bounded || misusing.any fun group =>
      group.1.contains known.1 && known.2.misusedBy group.2) = true := by
  decide +kernel

theorem misusing_small : ∀ group ∈ misusing, group.2.length ≤ 0x4000000 := by
  decide +kernel

theorem createPacket_mem {pcode : Nat} {packetClass : PacketClass}
    (known : createPacket pcode = some packetClass) : (pcode, packetClass) ∈ factory := by
  obtain ⟨before, after, isFactory, -⟩ := List.lookup_eq_some_iff.mp known
  rw [isFactory]
  exact List.mem_append_right _ List.mem_cons_self

/-- No body misuses the buffer: decoding ends with a packet or a refusal. -/
def PacketClass.Safe (packetClass : PacketClass) : Prop :=
  ∀ (dataLen : Nat) (bytes : List UInt8), dataLen ≤ 0x4000000 → dataLen ≤ bytes.length →
    ∀ kind, (packetClass.decode dataLen).run bytes ≠ .misused kind

theorem PacketClass.not_safe_of_misusedBy {packetClass : PacketClass} {body : List UInt8}
    (small : body.length ≤ 0x4000000) (misused : packetClass.misusedBy body = true) :
    ¬ packetClass.Safe := by
  intro safe
  unfold PacketClass.misusedBy at misused
  cases ends : (packetClass.decode body.length).run body with
  | misused kind => exact safe body.length body small le_rfl kind ends
  | _ =>
    rw [ends] at misused
    cases misused

/-- A class that the factory knows is safe exactly if all of its reads are careful. -/
theorem decoder_safe_iff (pcode : Nat) (packetClass : PacketClass)
    (known : createPacket pcode = some packetClass) :
    packetClass.Safe ↔ packetClass.bounded = true := by
  constructor
  · intro safe
    have covered := List.all_eq_true.mp misusing_factory _ (createPacket_mem known)
    cases Bool.or_eq_true_iff.mp covered with
    | inl bounded => exact bounded
    | inr misused =>
      obtain ⟨group, member, harms⟩ := List.any_eq_true.mp misused
      exact absurd safe (PacketClass.not_safe_of_misusedBy (misusing_small group member)
        (Bool.and_eq_true_iff.mp harms).2)
  · intro bounded dataLen bytes _ enough kind misused
    have leaves := PacketClass.careful_decode bounded dataLen bytes enough
    rw [misused] at leaves
    exact leaves

/-- A plain get of one field stays inside the buffer. -/
theorem requestHget_safe : requestHget.Safe :=
  (decoder_safe_iff 2112 requestHget rfl).mpr (by decide)

/-- A `get` that announces a key and has none, four bytes behind the header of the packet. -/
theorem requestGet_reads_past :
    createPacket 2 = some requestGet ∧
      (requestGet.decode 7).run [0, 0, 0, 0, 0, 0, 1] = .misused .past := by
  exact ⟨rfl, by decide +kernel⟩

end Tair.Packets
