/-
Hashes as finite maps. A hash in either encoding answers as the map of its fields does, as long as
no lookup in a table meets a field that is kept as an integer.
-/

import Tair.Rdb.DeadKeys
import Tair.Rdb.Decimal
import Tair.Rdb.FieldMap
import Tair.Rdb.HashEntries

namespace Tair.Rdb

open Tair.Library

/-! ### Hashes as the commands build them -/

/-- A field that is kept as an integer exactly when its text is that of a `long`. -/
def HashField.Encoded : HashField → Prop
  | .raw bytes _ => representedLong bytes = none
  | .int value => -2 ^ 63 ≤ value ∧ value < 2 ^ 63

theorem HashField.encoded_encode (bytes : Bytes) (timestamp : UInt32) :
    (HashField.encode bytes timestamp).Encoded := by
  unfold HashField.encode
  cases represented : representedLong bytes with
  | none => exact represented
  | some value =>
    obtain ⟨⟨low, high, _⟩, same⟩ := Option.ite_none_right_eq_some.mp represented
    rw [Option.some.inj same] at low high
    exact ⟨low, high⟩

theorem HashField.Encoded.timestamp {field : HashField} (encoded : field.Encoded)
    (plain : representedLong field.decoded = none) : ∃ stamp, field.timestamp = .ok stamp := by
  cases field with
  | raw bytes stamp => exact ⟨stamp, rfl⟩
  | int value => cases (representedLong_ll2string encoded.1 encoded.2).symm.trans plain

theorem StringObject.Encoded.number {object : StringObject} (encoded : object.Encoded) :
    getLongLongFromObject object = strtoll object.decoded := by
  cases object with
  | raw bytes => rfl
  | int value =>
    exact (strtoll_of_represented (representedLong_ll2string encoded.1 encoded.2)).symm

namespace RedisHash

def isTable : RedisHash → Bool
  | .zipmap _ => false
  | .table _ => true

structure Sound (hash : RedisHash) : Prop where
  nodup : (hash.entries.map Prod.fst).Nodup
  encoded : ∀ entries, hash = .table entries → ∀ entry ∈ entries,
    entry.1.Encoded ∧ entry.2.Encoded

def misreads (hash : RedisHash) (field : Bytes) : Bool :=
  hash.isTable && (representedLong field).isSome &&
    (Keyed.find Prod.fst hash.entries field).isSome

/-- No setting of the pairs, one after the other, misreads a field. On the way a zipmap may
become a table. -/
def safePairs (settings : Settings) :
    Bool → List (Bytes × Bytes) → List (Bytes × Bytes) → Bool
  | _, _, [] => true
  | isTable, entries, pair :: rest =>
    let after := Keyed.put Prod.fst entries pair
    !(isTable && (representedLong pair.1).isSome &&
        (Keyed.find Prod.fst entries pair.1).isSome) &&
      safePairs settings (isTable || settings.hashMaxZipmapEntries < after.length) after rest

theorem sound_empty : (RedisHash.zipmap []).Sound :=
  ⟨List.nodup_nil, fun _ bad => by cases bad⟩

variable {hash : RedisHash} {entries : List (HashField × StringObject)} {field : Bytes}

theorem Sound.convert (sound : hash.Sound) : hash.convert.Sound := by
  refine ⟨by rw [entries_convert]; exact sound.nodup, ?_⟩
  cases hash with
  | table entries => exact sound.encoded
  | zipmap entries =>
    intro converted same entry member
    cases same
    obtain ⟨old, _, rfl⟩ := List.mem_map.mp member
    exact ⟨HashField.encoded_encode .., encoded_tryObjectEncoding old.value⟩

theorem Sound.tryConversion (sound : hash.Sound) (settings : Settings) (arguments : List Bytes) :
    (hash.tryConversion settings arguments).Sound := by
  unfold RedisHash.tryConversion
  split_ifs
  · exact sound.convert
  · exact sound

theorem Sound.delete (sound : hash.Sound) (field : Bytes) : (hash.delete field).1.Sound := by
  refine ⟨by rw [entries_delete]; exact Keyed.nodup_erase sound.nodup field, ?_⟩
  cases hash with
  | zipmap entries => exact fun _ bad => by cases bad
  | table entries =>
    intro left same entry member
    cases same
    exact sound.encoded entries rfl entry (List.mem_of_mem_filter member)

theorem encoded_encodeValue (hash : RedisHash) (value : Bytes) (table : hash.isTable = true) :
    (hash.encodeValue value).Encoded := by
  cases hash with
  | zipmap entries => cases table
  | table entries => exact encoded_tryObjectEncoding value

/-! ### Lookups and settings without time stamps -/

theorem not_misreads_table {entry : HashField × StringObject}
    (found : Keyed.find tableKey entries field = some entry)
    (safe : (RedisHash.table entries).misreads field = false) : representedLong field = none := by
  unfold misreads at safe
  rw [find_table, found] at safe
  cases represented : representedLong field with
  | none => rfl
  | some value =>
    rw [represented] at safe
    cases safe

/-- A field that is found in a table without a misreading has its time stamp. -/
theorem Sound.stamp (sound : (RedisHash.table entries).Sound) {entry : HashField × StringObject}
    (found : Keyed.find tableKey entries field = some entry)
    (safe : (RedisHash.table entries).misreads field = false) :
    ∃ stamp, entry.1.timestamp = .ok stamp := by
  have same : entry.1.decoded = field := @Keyed.key_of_find _ _ _ tableKey _ _ _ found
  have encoded := (sound.encoded entries rfl entry (List.mem_of_find?_eq_some found)).1
  refine encoded.timestamp ?_
  rw [same]
  exact not_misreads_table found safe

theorem Sound.entryOf (sound : hash.Sound) (safe : hash.misreads field = false) :
    ∃ found, hash.entryOf field = .ok found ∧
      found.map (fun pair => pair.2.decoded) =
        (Keyed.find Prod.fst hash.entries field).map Prod.snd ∧
      ∀ pair ∈ found, getLongLongFromObject pair.2 = strtoll pair.2.decoded := by
  cases hash with
  | zipmap entries =>
    refine ⟨_, rfl, ?_, ?_⟩
    · rw [find_zipmap, Option.map_map, Option.map_map]
      rfl
    · intro pair member
      obtain ⟨entry, _, rfl⟩ := Option.map_eq_some_iff.mp member
      rfl
  | table entries =>
    rw [find_table]
    change ∃ found, (Keyed.find tableKey entries field).mapM _ = _ ∧ _
    cases here : Keyed.find tableKey entries field with
    | none => exact ⟨none, rfl, rfl, by simp⟩
    | some entry =>
      obtain ⟨stamp, stamped⟩ := sound.stamp here safe
      refine ⟨some (stamp, entry.2), ?_, rfl, ?_⟩
      · change some <$> (entry.1.timestamp.map fun stamp => (stamp, entry.2)) = _
        rw [stamped]
        rfl
      · rintro pair member
        cases member
        exact (sound.encoded entries rfl entry (List.mem_of_find?_eq_some here)).2.number

theorem get_plain {found : Option (UInt32 × StringObject)} (ran : hash.entryOf field = .ok found) :
    hash.get (HashRequest.plain field) = .ok (hash, found.map Prod.snd) := by
  unfold RedisHash.get
  change (hash.entryOf field >>= _) = _
  rw [ran]
  cases found with
  | none => rfl
  | some pair =>
    have young : ¬ pair.1 < (HashRequest.plain field).timestamp := UInt32.not_lt_zero
    change (if pair.1 < (HashRequest.plain field).timestamp then
      Except.ok ((hash.delete field).1, none) else Except.ok (hash, some pair.2)) = _
    exact if_neg young

/-- A table takes an entry if the fields that are compared have time stamps. -/
theorem replace_runs {field : HashField} (value : StringObject)
    (stamped : ∀ entry, Keyed.find tableKey entries field.decoded = some entry →
      (∃ stamp, field.timestamp = .ok stamp) ∧ ∃ stamp, entry.1.timestamp = .ok stamp) :
    ∃ there, replace entries field value =
      .ok (.table (Keyed.put tableKey entries (field, value)), there) := by
  unfold replace
  cases found : Keyed.find tableKey entries field.decoded with
  | none => exact ⟨false, rfl⟩
  | some entry =>
    obtain ⟨⟨stamp, ran⟩, old, oldRan⟩ := stamped entry found
    refine ⟨true, ?_⟩
    dsimp only
    rw [ran, oldRan]
    rfl

theorem Sound.set (sound : hash.Sound) (settings : Settings) {value : StringObject}
    (encoded : hash.isTable = true → value.Encoded) (safe : hash.misreads field = false) :
    let entries := Keyed.put Prod.fst hash.entries (field, value.decoded)
    ∃ after, hash.set settings (HashRequest.plain field) value =
        .ok (after, (Keyed.find Prod.fst hash.entries field).isSome) ∧
      after.Sound ∧ after.entries = entries ∧
      after.isTable =
        (hash.isTable || decide (settings.hashMaxZipmapEntries < entries.length)) := by
  intro entries
  have spec : ∀ after there, hash.set settings (HashRequest.plain field) value =
      .ok (after, there) → after.entries = entries ∧
        there = (Keyed.find Prod.fst hash.entries field).isSome := fun _ _ => entries_set
  have nodup : (entries.map Prod.fst).Nodup := Keyed.nodup_put sound.nodup _
  cases hash with
  | zipmap old =>
    obtain ⟨stored, there⟩ := spec _ _ rfl
    let raw : RedisHash := .zipmap (Keyed.put ZipmapEntry.field old
      { field, timestamp := 0, value := value.decoded })
    have rawEntries : raw.entries = entries := by
      have same := stored
      change (if settings.hashMaxZipmapEntries < raw.length then raw.convert
        else raw).entries = entries at same
      split_ifs at same
      · rwa [entries_convert] at same
      · exact same
    have rawSound : raw.Sound :=
      ⟨by rw [rawEntries]; exact nodup, fun _ bad => RedisHash.noConfusion bad⟩
    refine ⟨if settings.hashMaxZipmapEntries < raw.length then raw.convert else raw,
      ?_, ?_, stored, ?_⟩
    · rw [← there]
      rfl
    · split_ifs
      · exact rawSound.convert
      · exact rawSound
    · rw [← rawEntries, length_entries]
      split_ifs with long
      · rw [decide_eq_true long]
        rfl
      · rw [decide_eq_false long]
        rfl
  | table old =>
    obtain ⟨there, ran⟩ : ∃ there, (RedisHash.table old).set settings
        (HashRequest.plain field) value =
          .ok (.table (Keyed.put tableKey old ((HashRequest.plain field).encode, value)),
            there) := by
      refine replace_runs value fun entry found => ?_
      rw [FieldArgument.decoded_encode] at found
      refine ⟨(HashField.encoded_encode field 0).timestamp ?_, sound.stamp found safe⟩
      rw [HashField.decoded_encode]
      exact not_misreads_table found safe
    obtain ⟨stored, rfl⟩ := spec _ _ ran
    refine ⟨_, ran, ⟨by rw [stored]; exact nodup, ?_⟩, stored, rfl⟩
    intro after same entry member
    cases same
    rcases Keyed.mem_put member with new | kept
    · rw [new]
      exact ⟨HashField.encoded_encode field 0, encoded rfl⟩
    · exact sound.encoded old rfl entry kept

/-! ### Hashes and maps -/

structure Holds (hash : RedisHash) (map : FieldMap) : Prop where
  sound : hash.Sound
  models : Keyed.Models map hash.entries

section Holds

variable {hash : RedisHash} {map : FieldMap} {field : Bytes}

theorem holds_empty : (RedisHash.zipmap []).Holds ∅ := ⟨sound_empty, Keyed.models_nil⟩

section

variable (holds : hash.Holds map)

include holds

variable (settings : Settings)

theorem Holds.tryConversion (arguments : List Bytes) :
    (hash.tryConversion settings arguments).Holds map := by
  refine ⟨holds.sound.tryConversion settings arguments, ?_⟩
  rw [entries_tryConversion]
  exact holds.models

theorem Holds.length : hash.length = map.keys.card := by
  rw [holds.models.card_keys holds.sound.nodup, length_entries]

theorem Holds.get (safe : hash.misreads field = false) :
    ∃ value, hash.get (HashRequest.plain field) = .ok (hash, value) ∧
      value.map StringObject.decoded = map.lookup field ∧
      ∀ object ∈ value, getLongLongFromObject object = strtoll object.decoded := by
  obtain ⟨found, ran, same, numbers⟩ := holds.sound.entryOf safe
  refine ⟨found.map Prod.snd, get_plain ran, ?_, ?_⟩
  · rw [Option.map_map, holds.models field]
    exact same
  · intro object member
    obtain ⟨pair, here, rfl⟩ := Option.map_eq_some_iff.mp member
    exact numbers pair here

theorem Holds.set {value : StringObject} (encoded : hash.isTable = true → value.Encoded)
    (safe : hash.misreads field = false) :
    ∃ after, hash.set settings (HashRequest.plain field) value =
        .ok (after, (map.lookup field).isSome) ∧
      after.Holds (map.insert field value.decoded) ∧
      after.entries = Keyed.put Prod.fst hash.entries (field, value.decoded) ∧
      after.isTable =
        (hash.isTable || decide (settings.hashMaxZipmapEntries < after.entries.length)) := by
  obtain ⟨after, set, sound, entries, table⟩ := holds.sound.set settings encoded safe
  rw [← holds.models.isSome_lookup] at set
  rw [← entries] at table
  refine ⟨after, set, ⟨sound, ?_⟩, entries, table⟩
  rw [entries]
  exact holds.models.put field value.decoded

theorem Holds.delete (field : Bytes) :
    (hash.delete field).1.Holds (map.erase field) ∧
      (hash.delete field).2 = (map.lookup field).isSome := by
  refine ⟨⟨holds.sound.delete field, ?_⟩, ?_⟩
  · rw [entries_delete]
    exact holds.models.erase field
  · rw [delete_snd, holds.models.isSome_lookup]

theorem Holds.setPairs {pairs : List (Bytes × Bytes)}
    (safe : safePairs settings hash.isTable hash.entries pairs = true) :
    ∃ after, Rdb.setPairs settings (HashRequest.plainPairs pairs) hash = .ok after ∧
      after.Holds (insertAll map pairs) := by
  induction pairs generalizing hash map with
  | nil => exact ⟨hash, rfl, holds⟩
  | cons pair rest ih =>
    obtain ⟨here, later⟩ := Bool.and_eq_true_iff.mp safe
    have unread : hash.misreads pair.1 = false := by
      unfold misreads
      simpa only [Bool.not_eq_true'] using here
    obtain ⟨next, set, nextHolds, entries, table⟩ :=
      holds.set settings (encoded_encodeValue hash pair.2) unread
    rw [decoded_encodeValue] at nextHolds entries
    have nextSafe : safePairs settings next.isTable next.entries rest = true := by
      rw [table, entries]
      exact later
    obtain ⟨after, ran, afterHolds⟩ := ih nextHolds nextSafe
    refine ⟨after, ?_, afterHolds⟩
    change (hash.set settings (HashRequest.plain pair.1) (hash.encodeValue pair.2) >>= _) = _
    rw [set]
    exact ran

theorem Holds.setPresent (table : hash.isTable = true) {known : Bytes → Bool}
    (knows : ∀ field, known field = (map.lookup field).isSome) {pairs : List (Bytes × Bytes)}
    (safe : ∀ pair ∈ pairs.takeWhile (fun pair => known pair.1), representedLong pair.1 = none) :
    ∃ after left, Rdb.setPresent settings (HashRequest.plainPairs pairs) hash =
        .ok (after, left) ∧
      (pairs.takeWhile fun pair => known pair.1).length + left = pairs.length ∧
      after.Holds (insertAll map (pairs.takeWhile fun pair => known pair.1)) := by
  induction pairs generalizing hash map with
  | nil => exact ⟨hash, 0, rfl, rfl, holds⟩
  | cons pair rest ih =>
    cases hash with
    | zipmap _ => cases table
    | table entries =>
      have here : known pair.1 = (Keyed.find tableKey entries pair.1).isSome := by
        rw [knows, holds.models.isSome_lookup, find_table, Option.isSome_map]
      change ∃ after left, (if (Keyed.find tableKey entries pair.1).isSome = true then
        (RedisHash.table entries).set settings (HashRequest.plain pair.1)
          ((RedisHash.table entries).encodeValue pair.2) >>= fun set =>
            Rdb.setPresent settings (HashRequest.plainPairs rest) set.1
        else .ok (.table entries, (HashRequest.plainPairs rest).length + 1)) = _ ∧ _
      rw [← here]
      by_cases there : known pair.1 = true
      · have lead : (pair :: rest).takeWhile (fun pair => known pair.1) =
            pair :: rest.takeWhile fun pair => known pair.1 :=
          List.takeWhile_cons_of_pos there
        rw [lead] at safe ⊢
        have unread : (RedisHash.table entries).misreads pair.1 = false := by
          unfold misreads
          rw [safe pair List.mem_cons_self]
          rfl
        obtain ⟨next, set, nextHolds, _, nextTable⟩ :=
          holds.set settings (encoded_encodeValue _ pair.2) unread
        rw [decoded_encodeValue] at nextHolds
        -- the fields that are there stay the same ones
        have nextKnows : ∀ field,
            known field = ((map.insert pair.1 pair.2).lookup field).isSome := by
          intro field
          by_cases same : field = pair.1
          · rw [same, Finmap.lookup_insert]
            exact there
          · rw [Finmap.lookup_insert_of_ne _ same]
            exact knows field
        obtain ⟨after, left, ran, count, afterHolds⟩ := ih nextHolds nextTable nextKnows
          (fun other member => safe other (List.mem_cons_of_mem _ member))
        refine ⟨after, left, ?_, ?_, afterHolds⟩
        · rw [if_pos there, set]
          exact ran
        · rw [List.length_cons, List.length_cons]
          omega
      · have lead : (pair :: rest).takeWhile (fun pair => known pair.1) = [] :=
          List.takeWhile_cons_of_neg there
        rw [lead, if_neg there]
        refine ⟨_, _, rfl, ?_, holds⟩
        rw [HashRequest.plainPairs, List.length_map, List.length_nil, List.length_cons]
        omega

end

end Holds

end RedisHash

end Tair.Rdb
