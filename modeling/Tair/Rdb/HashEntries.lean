/-
A hash as the list of its fields and values, whichever encoding it has. Conversion leaves the
list as it is, and setting and deleting a field do in either encoding what they do to the list.
-/

import Tair.Rdb.HashCommands

namespace Tair.Rdb

open Tair.Library

theorem HashField.decoded_encode (bytes : Bytes) (timestamp : UInt32) :
    (HashField.encode bytes timestamp).decoded = bytes := by
  unfold HashField.encode
  cases represented : representedLong bytes with
  | none => rfl
  | some value => exact StringObject.ll2string_of_represented represented

theorem FieldArgument.decoded_encode (field : FieldArgument) :
    field.encode.decoded = field.bytes := HashField.decoded_encode ..

namespace RedisHash

def zipmapPair (entry : ZipmapEntry) : Bytes × Bytes := (entry.field, entry.value)

def tablePair (entry : HashField × StringObject) : Bytes × Bytes :=
  (entry.1.decoded, entry.2.decoded)

variable (hash : RedisHash)

theorem length_entries : hash.entries.length = hash.length := by
  cases hash with
  | zipmap entries => exact List.length_map _
  | table entries => exact List.length_map _

theorem entries_convert : hash.convert.entries = hash.entries := by
  cases hash with
  | table entries => rfl
  | zipmap entries =>
    change (entries.map _).map tablePair = entries.map zipmapPair
    rw [List.map_map]
    refine List.map_congr_left fun entry _ => Prod.ext ?_ ?_
    · exact HashField.decoded_encode ..
    · exact StringObject.decoded_tryObjectEncoding (.raw entry.value)

theorem entries_tryConversion (settings : Settings) (arguments : List Bytes)
    (hash : RedisHash) : (hash.tryConversion settings arguments).entries = hash.entries := by
  unfold tryConversion
  split_ifs
  · exact entries_convert hash
  · rfl

theorem decoded_encodeValue (value : Bytes) : (hash.encodeValue value).decoded = value := by
  cases hash with
  | zipmap entries => rfl
  | table entries => exact StringObject.decoded_tryObjectEncoding (.raw value)

theorem find_zipmap (entries : List ZipmapEntry) (field : Bytes) :
    Keyed.find Prod.fst (RedisHash.zipmap entries).entries field =
      (Keyed.find ZipmapEntry.field entries field).map zipmapPair :=
  @Keyed.find_map _ _ _ _ ZipmapEntry.field Prod.fst zipmapPair (fun _ => rfl) entries field

theorem find_table (entries : List (HashField × StringObject)) (field : Bytes) :
    Keyed.find Prod.fst (RedisHash.table entries).entries field =
      (Keyed.find tableKey entries field).map tablePair :=
  @Keyed.find_map _ _ _ _ tableKey Prod.fst tablePair (fun _ => rfl) entries field

theorem entries_delete (field : Bytes) :
    (hash.delete field).1.entries = Keyed.erase Prod.fst hash.entries field := by
  cases hash with
  | zipmap entries =>
    exact (@Keyed.erase_map _ _ _ _ ZipmapEntry.field Prod.fst zipmapPair (fun _ => rfl)
      entries field).symm
  | table entries =>
    exact (@Keyed.erase_map _ _ _ _ tableKey Prod.fst tablePair (fun _ => rfl)
      entries field).symm

theorem delete_snd (field : Bytes) :
    (hash.delete field).2 = (Keyed.find Prod.fst hash.entries field).isSome := by
  cases hash with
  | zipmap entries => rw [find_zipmap, Option.isSome_map]; rfl
  | table entries => rw [find_table, Option.isSome_map]; rfl

theorem entries_replace {entries : List (HashField × StringObject)} {field : HashField}
    {value : StringObject} {after : RedisHash} {there : Bool}
    (replaced : replace entries field value = .ok (after, there)) :
    after.entries = Keyed.put Prod.fst (RedisHash.table entries).entries
        (field.decoded, value.decoded) ∧
      there = (Keyed.find Prod.fst (RedisHash.table entries).entries field.decoded).isSome := by
  have stored : (RedisHash.table (Keyed.put tableKey entries (field, value))).entries =
      Keyed.put Prod.fst (RedisHash.table entries).entries (field.decoded, value.decoded) :=
    (@Keyed.put_map _ _ _ _ tableKey Prod.fst tablePair (fun _ => rfl) entries
      (field, value)).symm
  rw [find_table, Option.isSome_map]
  unfold replace at replaced
  split at replaced
  next found =>
    cases replaced
    exact ⟨stored, by rw [found]; rfl⟩
  next found =>
    rw [found]
    obtain ⟨_, _, replaced⟩ := ok_of_bind replaced
    obtain ⟨_, _, replaced⟩ := ok_of_bind replaced
    cases replaced
    exact ⟨stored, rfl⟩

theorem entries_set {settings : Settings} {hash after : RedisHash} {field : FieldArgument}
    {value : StringObject} {there : Bool}
    (ran : hash.set settings field value = .ok (after, there)) :
    after.entries = Keyed.put Prod.fst hash.entries (field.bytes, value.decoded) ∧
      there = (Keyed.find Prod.fst hash.entries field.bytes).isSome := by
  cases hash with
  | table entries =>
    have replaced := @entries_replace entries field.encode value after there ran
    rwa [FieldArgument.decoded_encode] at replaced
  | zipmap entries =>
    unfold set at ran
    cases ran
    rw [find_zipmap, Option.isSome_map]
    refine ⟨?_, rfl⟩
    have stored : (RedisHash.zipmap (Keyed.put ZipmapEntry.field entries
        ⟨field.bytes, field.timestamp, value.decoded⟩)).entries =
        Keyed.put Prod.fst (RedisHash.zipmap entries).entries (field.bytes, value.decoded) :=
      (@Keyed.put_map _ _ _ _ ZipmapEntry.field Prod.fst zipmapPair (fun _ => rfl) entries
        ⟨field.bytes, field.timestamp, value.decoded⟩).symm
    split_ifs
    · rw [entries_convert, stored]
    · exact stored

end RedisHash

end Tair.Rdb
