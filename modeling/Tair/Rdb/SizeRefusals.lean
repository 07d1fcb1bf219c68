/-
Commands that meet the bound on the size of an object. By the time they refuse they may have
created the object, dropped elements of a list, or done a part of their work.
-/

import Tair.Rdb.ConditionalPush
import Tair.Rdb.PoppedMember
import Tair.Rdb.Refusals

namespace Tair.Rdb

open Tair.Library RedisList

variable {σ : Type}

structure Client.Untouched (client : Client) (slot : Slot σ) : Prop where
  version : client.versionCare = false
  expire : client.expireOrNot.apply slot.expire = slot.expire

theorem nextVersion_same_iff {client : Client} {stored version : UInt16}
    (accepted : client.nextVersion (some stored) = some version) :
    version = stored ↔ client.versionCare = false := by
  unfold Client.nextVersion at accepted
  dsimp only at accepted
  split_ifs at accepted with _ care
  · cases accepted
    have ne : stored + 1 ≠ stored := by simp
    exact iff_of_false ne (by simp [care])
  · cases accepted
    exact iff_of_true rfl (by simpa using care)

section Changes

variable {clock : UInt32} {now : Int} {slot : Slot σ} {client : Client} {version : UInt16}
  {value : Robj σ}

theorem unseen_write_iff (alive : slot.dead clock now = false)
    (accepted : client.nextVersion (some slot.entry.version) = some version) :
    (Change.store value version client.expireOrNot).Unseen clock now (some slot) ↔
      client.Untouched slot ∧ value.content = slot.entry.value.content := by
  rw [unseen_store_iff alive, nextVersion_same_iff accepted]
  constructor
  · rintro ⟨content, care, expire⟩
    exact ⟨⟨care, expire⟩, content⟩
  · rintro ⟨⟨care, expire⟩, content⟩
    exact ⟨content, care, expire⟩

theorem unseen_back_iff (alive : slot.dead clock now = false) :
    (Change.store value slot.entry.version .keep).Unseen clock now (some slot) ↔
      value.content = slot.entry.value.content := by
  rw [unseen_store_iff alive]
  exact and_iff_left ⟨rfl, rfl⟩

theorem seen_created (version : UInt16) (value : Robj σ) :
    ¬ (Change.store value version .keep).Unseen clock now none := by
  rw [unseen_create_iff]
  rintro ⟨expire, bad, _⟩
  cases bad

end Changes

/-! ### Hashes -/

theorem value_of_asHash {value : Robj σ} {hash : RedisHash} (isHash : value.asHash = some hash) :
    value = .hash hash := by
  cases value <;> cases isHash
  rfl

namespace RedisHash

theorem get_cases {hash after : RedisHash} {field : FieldArgument} {value : Option StringObject}
    (ran : hash.get field = .ok (after, value)) :
    (∃ timestamp stored, hash.entryOf field.bytes = .ok (some (timestamp, stored)) ∧
      ¬ timestamp < field.timestamp ∧ after = hash ∧ value = some stored) ∨
    (hash.entryOf field.bytes = .ok none ∧ after = hash ∧ value = none) ∨
    (∃ timestamp stored, hash.entryOf field.bytes = .ok (some (timestamp, stored)) ∧
      timestamp < field.timestamp ∧ after = (hash.delete field.bytes).1 ∧ value = none) := by
  obtain ⟨entry, found, ran⟩ := ok_of_bind ran
  cases entry with
  | none =>
    cases ran
    exact .inr (.inl ⟨found, rfl, rfl⟩)
  | some entry =>
    obtain ⟨timestamp, stored⟩ := entry
    dsimp only at ran
    split_ifs at ran with old
    · cases ran
      exact .inr (.inr ⟨timestamp, stored, found, old, rfl, rfl⟩)
    · cases ran
      exact .inl ⟨timestamp, stored, found, old, rfl, rfl⟩

theorem isSome_find_of_entryOf {hash : RedisHash} {field : Bytes}
    {entry : UInt32 × StringObject} (found : hash.entryOf field = .ok (some entry)) :
    (Keyed.find Prod.fst hash.entries field).isSome := by
  cases hash with
  | zipmap entries =>
    rw [find_zipmap, Option.isSome_map]
    obtain ⟨stored, here, _⟩ := Option.map_eq_some_iff.mp (Except.ok.inj found)
    rw [here]
    rfl
  | table entries =>
    rw [find_table, Option.isSome_map]
    cases here : Keyed.find tableKey entries field with
    | some stored => rfl
    | none =>
      change Option.mapM _ (Keyed.find tableKey entries field) = _ at found
      rw [here] at found
      cases found

theorem entries_delete_ne {hash : RedisHash} {field : Bytes}
    (here : (Keyed.find Prod.fst hash.entries field).isSome) :
    (hash.delete field).1.entries.toFinset ≠ hash.entries.toFinset := by
  obtain ⟨pair, member, same⟩ := List.mem_map.mp (Keyed.isSome_find_iff.mp here)
  intro equal
  have kept := List.mem_toFinset.mpr member
  rw [← equal, List.mem_toFinset, entries_delete] at kept
  have apart := List.of_mem_filter kept
  exact of_decide_eq_true apart same

end RedisHash

def FieldArgument.Stale (field : FieldArgument) (hash : RedisHash) : Prop :=
  ∃ timestamp value, hash.entryOf field.bytes = .ok (some (timestamp, value)) ∧
    timestamp < field.timestamp

/-- An increment finds its hash, and the field is not too old when the version is accepted. -/
def HincrbyUnseen (client : Client) (field : FieldArgument) : Option (Slot σ) → Prop
  | none => False
  | some slot => ∀ hash, slot.entry.value.asHash = some hash →
      (client.nextVersion (some slot.entry.version)).isSome → ¬ field.Stale hash

/-! A full hash takes pairs as long as it has their fields. -/

def leadingPairs (fields : List Bytes) (pairs : List (FieldArgument × Bytes)) :
    List (FieldArgument × Bytes) :=
  pairs.takeWhile fun pair => pair.1.bytes ∈ fields

def lastValue : List (FieldArgument × Bytes) → Bytes → Option Bytes
  | [], _ => none
  | pair :: rest, field =>
    (lastValue rest field).or (if pair.1.bytes = field then some pair.2 else none)

def overwritten (pairs : List (FieldArgument × Bytes)) (entry : Bytes × Bytes) : Bytes × Bytes :=
  (entry.1, (lastValue pairs entry.1).getD entry.2)

theorem overwritten_cons (pair : FieldArgument × Bytes) (rest : List (FieldArgument × Bytes))
    (entry : Bytes × Bytes) :
    overwritten rest (if entry.1 = pair.1.bytes then (pair.1.bytes, pair.2) else entry) =
      overwritten (pair :: rest) entry := by
  unfold overwritten
  split_ifs with same
  · refine Prod.ext same.symm ?_
    rw [lastValue, if_pos same.symm, same]
    cases lastValue rest pair.1.bytes <;> rfl
  · rw [lastValue, if_neg (Ne.symm same), Option.or_none]

theorem setPresent_eq {settings : Settings} {pairs : List (FieldArgument × Bytes)}
    {hash after : RedisHash} {left : Nat}
    (ran : setPresent settings pairs hash = .ok (after, left)) :
    let lead := leadingPairs (hash.entries.map Prod.fst) pairs
    after.entries = hash.entries.map (overwritten lead) ∧ lead.length + left = pairs.length := by
  induction pairs generalizing hash with
  | nil =>
    cases ran
    refine ⟨?_, rfl⟩
    exact (List.map_id _).symm
  | cons pair rest ih =>
    obtain ⟨field, value⟩ := pair
    cases hash with
    | zipmap entries => cases ran
    | table entries =>
      have here : (Keyed.find tableKey entries field.bytes).isSome ↔
          field.bytes ∈ (RedisHash.table entries).entries.map Prod.fst := by
        rw [← Keyed.isSome_find_iff, RedisHash.find_table, Option.isSome_map]
      unfold setPresent at ran
      split_ifs at ran with found
      · obtain ⟨⟨next, there⟩, set, ran⟩ := ok_of_bind ran
        obtain ⟨stored, _⟩ := RedisHash.entries_set set
        rw [RedisHash.decoded_encodeValue] at stored
        have member := here.mp found
        have fields : next.entries.map Prod.fst =
            (RedisHash.table entries).entries.map Prod.fst := by
          rw [stored, Keyed.keys_put, if_pos (Keyed.isSome_find_iff.mpr member)]
        have lead : leadingPairs ((RedisHash.table entries).entries.map Prod.fst)
            ((field, value) :: rest) = (field, value) ::
              leadingPairs ((RedisHash.table entries).entries.map Prod.fst) rest :=
          List.takeWhile_cons_of_pos (decide_eq_true member)
        obtain ⟨later, counted⟩ := ih ran
        rw [fields] at later counted
        rw [lead]
        refine ⟨?_, by rw [List.length_cons, List.length_cons]; omega⟩
        rw [later, stored, Keyed.put, if_pos (Keyed.isSome_find_iff.mpr member), List.map_map]
        exact List.map_congr_left fun entry _ => overwritten_cons (field, value) _ entry
      · cases ran
        have lead : leadingPairs ((RedisHash.table entries).entries.map Prod.fst)
            ((field, value) :: rest) = [] :=
          List.takeWhile_cons_of_neg (fun test => found (here.mpr (of_decide_eq_true test)))
        rw [lead]
        refine ⟨(List.map_id _).symm, ?_⟩
        rw [List.length_nil, List.length_cons, Nat.zero_add]

theorem overwritten_same_iff (pairs : List (FieldArgument × Bytes))
    (entries : List (Bytes × Bytes)) :
    (entries.map (overwritten pairs)).toFinset = entries.toFinset ↔
      ∀ entry ∈ entries, ∀ value, lastValue pairs entry.1 = some value → entry.2 = value := by
  constructor
  · intro same entry member value last
    have kept := List.mem_toFinset.mpr member
    rw [← same, List.mem_toFinset] at kept
    obtain ⟨other, _, rfl⟩ := List.mem_map.mp kept
    change (lastValue pairs other.1).getD other.2 = value
    rw [show lastValue pairs other.1 = some value from last]
    rfl
  · intro old
    refine congrArg List.toFinset ?_
    refine (List.map_congr_left fun entry member => ?_).trans (List.map_id entries)
    refine Prod.ext rfl ?_
    change (lastValue pairs entry.1).getD entry.2 = entry.2
    cases last : lastValue pairs entry.1 with
    | none => rfl
    | some value => exact (old entry member value last).symm

/-- A refused `hmset` finds its hash, and when the version is accepted it sets no pair, or it
sets those that are there already in a key that stays as it is otherwise. -/
def HmsetUnseen (client : Client) (pairs : List (FieldArgument × Bytes)) :
    Option (Slot σ) → Prop
  | none => False
  | some slot => ∀ hash, slot.entry.value.asHash = some hash →
      (client.nextVersion (some slot.entry.version)).isSome →
        let lead := leadingPairs (hash.entries.map Prod.fst) pairs
        lead = [] ∨ (client.Untouched slot ∧ ∀ entry ∈ hash.entries, ∀ value,
          lastValue lead entry.1 = some value → entry.2 = value)

section Hashes

variable {clock : UInt32} {now : Int} {slot : Option (Slot σ)} {client : Client}
  (settings : Settings) (alive : ∀ found, slot = some found → found.dead clock now = false)

include alive

theorem judged_hset (field : FieldArgument) (value : Bytes) :
    Judged clock now slot slot.isSome
      (hsetCommand settings client field value (slot.map Slot.entry)) := by
  cases slot with
  | none =>
    refine judged_bind fun set _ => ?_
    split_ifs
    · exact judged_change (iff_of_false (seen_created _ _) Bool.false_ne_true)
    · exact judged_answered rfl
    · exact judged_answered rfl
  | some stored =>
    refine judged_typed (fun _ => rfl) fun hash isHash =>
      judged_versioned (fun _ => rfl) fun version _ => judged_bind fun set ran => ?_
    split_ifs with refused
    · refine judged_change (iff_of_true ((unseen_back_iff (alive stored rfl)).mpr ?_) rfl)
      obtain ⟨after, there⟩ := set
      obtain ⟨fresh, _⟩ := refused
      change there = false at fresh
      subst fresh
      rw [value_of_asHash isHash]
      change Content.hash _ = Content.hash _
      obtain ⟨put, found⟩ := RedisHash.entries_set ran
      have absent := Option.isNone_iff_eq_none.mp (Option.isSome_eq_false_iff.mp found.symm)
      rw [RedisHash.entries_delete, put, Keyed.erase_put absent, RedisHash.entries_tryConversion]
    · exact judged_answered rfl
    · exact judged_answered rfl

omit alive in
theorem judged_storeIncrement {condition : Prop} (field : FieldArgument) (value : Int)
    (version found : UInt16) (hash : RedisHash) : Judged clock now slot condition
      (storeIncrement settings client field value version found hash) :=
  judged_bind fun _ _ => judged_answered rfl

theorem judged_hincrby (field : FieldArgument) (incr : Int) :
    Judged clock now slot (HincrbyUnseen client field slot)
      (hincrbyCommand settings client field incr (slot.map Slot.entry)) := by
  cases slot with
  | none =>
    refine judged_bind fun got ran => ?_
    obtain ⟨after, value⟩ := got
    rcases RedisHash.get_cases ran with ⟨_, _, found, _⟩ | ⟨_, rfl, rfl⟩ | ⟨_, _, found, _⟩
    · cases found
    · dsimp only
      split_ifs
      · exact judged_storeIncrement settings field _ _ _ _
      · exact judged_change (iff_of_false (seen_created _ _) id)
    · cases found
  | some stored =>
    refine judged_guarded (C := fun hash => ¬field.Stale hash) fun hash version isHash _ =>
      judged_bind fun got ran => ?_
    have back := fun value => @unseen_back_iff σ clock now stored value (alive stored rfl)
    rw [value_of_asHash isHash] at back
    obtain ⟨after, value⟩ := got
    rcases RedisHash.get_cases ran with ⟨timestamp, current, found, young, rfl, rfl⟩ |
      ⟨found, rfl, rfl⟩ | ⟨timestamp, current, found, old, rfl, rfl⟩
    · have fresh : ¬ field.Stale after := by
        rintro ⟨other, _, otherFound, old⟩
        cases found.symm.trans otherFound
        exact young old
      dsimp only
      cases getLongLongFromObject current with
      | none => exact judged_change (iff_of_true ((back _).mpr rfl) fresh)
      | some number => exact judged_storeIncrement settings field _ _ _ _
    · have fresh : ¬ field.Stale after := by
        rintro ⟨other, _, otherFound, _⟩
        cases found.symm.trans otherFound
      dsimp only
      split_ifs
      · exact judged_storeIncrement settings field _ _ _ _
      · exact judged_change (iff_of_true ((back _).mpr rfl) fresh)
    · -- The hash has lost the field, and has no room for it all the same.
      dsimp only
      split_ifs
      · exact judged_storeIncrement settings field _ _ _ _
      · refine judged_change (iff_of_false ?_ (not_not.mpr ⟨timestamp, current, found, old⟩))
        intro unseen
        have content := Content.hash.inj ((back _).mp unseen)
        exact RedisHash.entries_delete_ne (RedisHash.isSome_find_of_entryOf found) content

theorem judged_hmset (pairs : List (FieldArgument × Bytes)) :
    Judged clock now slot (HmsetUnseen client pairs slot)
      (hmsetCommand settings client pairs (slot.map Slot.entry)) := by
  cases slot with
  | none =>
    change Judged _ _ _ _ (if _ then _ else _)
    split_ifs
    · exact judged_bind fun set _ => judged_answered rfl
    · refine judged_bind fun set ran => ?_
      obtain ⟨after, left⟩ := set
      obtain ⟨_, counted⟩ := setPresent_eq ran
      rw [RedisHash.entries_tryConversion] at counted
      -- No field is there, so all pairs are left.
      have all : left = pairs.length := by
        cases pairs with
        | nil => simpa [leadingPairs] using counted
        | cons pair rest => simpa [leadingPairs, RedisHash.entries] using counted
      refine judged_change (iff_of_false ?_ id)
      dsimp only
      rw [if_pos all]
      exact seen_created _ _
  | some stored =>
    refine judged_guarded fun hash version isHash accepted => ?_
    let lead := leadingPairs (hash.entries.map Prod.fst) pairs
    dsimp only
    split_ifs
    · exact judged_bind fun set _ => judged_answered rfl
    · refine judged_bind fun set ran => ?_
      obtain ⟨after, left⟩ := set
      obtain ⟨entries, counted⟩ := setPresent_eq ran
      rw [RedisHash.entries_tryConversion] at entries counted
      change after.entries = hash.entries.map (overwritten lead) at entries
      change lead.length + left = pairs.length at counted
      refine judged_change ?_
      dsimp only
      by_cases idle : lead = []
      · rw [idle, List.length_nil, Nat.zero_add] at counted
        rw [if_pos counted]
        refine iff_of_true ((unseen_back_iff (alive stored rfl)).mpr ?_) (.inl idle)
        rw [value_of_asHash isHash]
        refine congrArg (fun entries => Content.hash (List.toFinset entries)) ?_
        rw [entries, idle]
        exact List.map_id _
      · have some : left ≠ pairs.length := by
          have pos := List.length_pos_of_ne_nil idle
          omega
        rw [if_neg some, unseen_write_iff (alive stored rfl) accepted, value_of_asHash isHash,
          or_iff_right idle, ← overwritten_same_iff, ← entries]
        exact and_congr_right fun _ => ⟨Content.hash.inj, congrArg Content.hash⟩

end Hashes

/-! ### Sets and sorted sets -/

theorem value_of_asSet {value : Robj σ} {set : RedisSet} (isSet : value.asSet = some set) :
    value = .set set := by
  cases value <;> cases isSet
  rfl

theorem value_of_asZset {value : Robj σ} {nodes : List (ZslNode σ)}
    (isZset : value.asZset = some nodes) : value = .zset nodes := by
  cases value <;> cases isZset
  rfl

namespace RedisSet

theorem objects_add (settings : Settings) {set : RedisSet} {value : StringObject}
    (encoded : value.Encoded) (fresh : (set.add settings value).2 = true) :
    (set.add settings value).1.objects.Perm (value :: set.objects) := by
  cases set with
  | table members =>
    unfold add at fresh ⊢
    dsimp only at fresh ⊢
    split_ifs at fresh ⊢
    exact List.perm_append_singleton value members
  | intset numbers =>
    cases value with
    | raw bytes =>
      have none : representedLong bytes = none := encoded
      have added : (add settings (.intset numbers) (.raw bytes)).1 =
          .table (numbers.map StringObject.int ++ [.raw bytes]) := by
        simp only [add, StringObject.asLong, none]
      rw [added]
      exact List.perm_append_singleton _ _
    | int number =>
      have inserted := (List.perm_orderedInsert (· ≤ ·) number numbers).map StringObject.int
      unfold add at fresh ⊢
      dsimp only [StringObject.asLong] at fresh ⊢
      split_ifs at fresh ⊢
      · exact inserted
      · exact inserted

theorem members_add_remove (settings : Settings) {set : RedisSet} {value : StringObject}
    (sound : set.Sound) (encoded : value.Encoded) (fresh : (set.add settings value).2 = true) :
    ((set.add settings value).1.remove value).1.members = set.members := by
  have objects := objects_add settings encoded fresh
  have added := sound_add settings sound encoded
  have apart := (objects.map StringObject.decoded).nodup_iff.mp added.nodup
  have new : value.decoded ∉ set.members := by
    unfold members
    rw [List.mem_toFinset]
    exact (List.nodup_cons.mp apart).1
  have more : (set.add settings value).1.members = insert value.decoded set.members := by
    unfold members
    rw [List.toFinset_eq_of_perm _ _ (objects.map StringObject.decoded), List.map_cons,
      List.toFinset_cons]
  rw [members_remove added (objects.mem_iff.mpr List.mem_cons_self), more, Finset.erase_insert new]

end RedisSet

section Sets

variable {clock : UInt32} {now : Int} {slot : Option (Slot σ)} {client : Client}
  (settings : Settings) (alive : ∀ found, slot = some found → found.dead clock now = false)

include alive

theorem judged_sadd (member : Bytes)
    (sound : ∀ stored set, slot = some stored → stored.entry.value = .set set → set.Sound) :
    Judged clock now slot slot.isSome
      (saddCommand settings client member (slot.map Slot.entry)) := by
  have encoded := encoded_tryObjectEncoding member
  cases slot with
  | none =>
    refine judged_change_of_error fun error => iff_of_false ?_ Bool.false_ne_true
    unfold addMember at error ⊢
    dsimp only at error ⊢
    split_ifs at error ⊢ with refused
    · exact seen_created _ _
    · cases error
    · cases error
  | some stored =>
    refine judged_versioned (fun _ => rfl) fun version _ =>
      judged_typed (fun _ => rfl) fun set isSet => ?_
    have value := value_of_asSet isSet
    refine judged_change_of_error fun error => iff_of_true ?_ rfl
    unfold addMember at error ⊢
    dsimp only at error ⊢
    split_ifs at error ⊢ with refused
    · refine (unseen_back_iff (alive stored rfl)).mpr ?_
      rw [value]
      exact congrArg Content.set (RedisSet.members_add_remove settings
        (sound stored set rfl value) encoded refused.1)
    · cases error
    · cases error

variable [LinearOrder σ]

omit alive in
theorem change_of_addScored {ops : ScoreOps σ} {incr : Bool} {object : StringObject} {score : σ}
    {stored version found : UInt16} {nodes : List (ZslNode σ)} {out : Outcome σ}
    (ran : addScored settings ops client incr object score stored version found nodes =
      .ok out) (error : out.code.isError) : out.change = .store (.zset nodes) stored .keep := by
  unfold addScored at ran
  dsimp only at ran
  split at ran
  · cases ran
    rfl
  · split at ran
    · cases ran
      rfl
    · obtain ⟨after, _, ran⟩ := ok_of_bind ran
      cases ran
      dsimp only at error
      split_ifs at error
      · cases error
      · cases error

theorem judged_zadd (ops : ScoreOps σ) (incr : Bool) (member : Bytes) (score : σ) :
    Judged clock now slot slot.isSome
      (zaddGenericCommand settings ops client incr member score (slot.map Slot.entry)) := by
  cases slot with
  | none =>
    intro out ran error
    rw [change_of_addScored settings ran error]
    exact iff_of_false (seen_created _ _) Bool.false_ne_true
  | some stored =>
    refine judged_typed (fun _ => rfl) fun nodes isZset =>
      judged_versioned (fun _ => rfl) fun version _ => ?_
    intro out ran error
    rw [change_of_addScored settings ran error]
    refine iff_of_true ((unseen_back_iff (alive stored rfl)).mpr ?_) rfl
    rw [value_of_asZset isZset]

end Sets

/-! ### Lists -/

theorem value_of_asList {value : Robj σ} {list : RedisList} (isList : value.asList = some list) :
    value = .list list := by
  cases value <;> cases isList
  rfl

theorem pushCopies_full {limits : Limits} {growing : End} {value : StringObject} {count : Nat}
    {list : RedisList} (full : fitsLimit (list.length + 1) limits.listMaxSize = false) :
    pushCopies limits growing value count list = (list, count) := by
  cases count with
  | zero => rfl
  | succ count =>
    unfold pushCopies
    rw [full]
    rfl

theorem length_le_pushCopies (limits : Limits) (growing : End) (value : StringObject)
    (count : Nat) (list : RedisList) :
    list.length ≤ (pushCopies limits growing value count list).1.length := by
  induction count generalizing list with
  | zero => exact le_refl _
  | succ count ih =>
    unfold pushCopies
    split_ifs
    · have later := ih (list.push limits growing value)
      rw [length_push] at later
      omega
    · exact le_refl _

/-- A conditional push that meets the bound at once does not touch the list, but it does touch
the version and the time to expire. -/
def PushxUnseen (limits : Limits) (client : Client) : Option (Slot σ) → Prop
  | none => True
  | some slot => ∀ list, slot.entry.value.asList = some list →
      (client.nextVersion (some slot.entry.version)).isSome →
        fitsLimit (list.length + 1) limits.listMaxSize = false ∧ client.Untouched slot

/-- A push that meets the bound is unseen when it neither drops nor adds anything, or when what
it adds is what it drops in a key that stays as it is otherwise; a list that it creates is
unseen when its time is over at once. -/
def PushUnseen (limits : Limits) (growing : End) (client : Client) (maxCount : Int)
    (values : List Bytes) (now : Int) : Option (Slot σ) → Prop
  | none => 0 < client.expiretime ∧ client.expiretime < now
  | some slot => ∀ list, slot.entry.value.asList = some list →
      (client.nextVersion (some slot.entry.version)).isSome →
        let popped := poppedCount maxCount list.length values.length
        let skipped := skippedCount maxCount list.length values.length
        let taken := takenCount maxCount limits.listMaxSize list.length values.length
        (popped = 0 ∧ skipped = 0 ∧ taken = 0) ∨
          (client.Untouched slot ∧
            (growing.aged list.items).drop popped ++ (values.drop skipped).take taken =
              growing.aged list.items)

section Lists

variable {clock : UInt32} {now : Int} {slot : Option (Slot σ)} {client : Client}
  (limits : Limits) (growing : End)
  (alive : ∀ found, slot = some found → found.dead clock now = false)

include alive

theorem judged_pushx (values : List Bytes) :
    Judged clock now slot (PushxUnseen limits client slot)
      (pushxnGenericCommand limits growing client values (slot.map Slot.entry)) := by
  cases values with
  | nil =>
    intro out bad
    cases bad
  | cons first rest =>
    cases slot with
    | none => exact judged_refuse _ _ trivial
    | some stored =>
      refine judged_guarded fun list version isList accepted => judged_change ?_
      dsimp only
      rw [unseen_write_iff (alive stored rfl) accepted, value_of_asList isList, and_comm]
      refine and_congr_left fun _ => ?_
      generalize (StringObject.raw first).tryObjectEncoding = value
      constructor
      · intro content
        have items := Content.list.inj content
        cases full : fitsLimit (list.length + 1) limits.listMaxSize with
        | false => rfl
        | true =>
          have longer := length_le_pushCopies limits growing value rest.length
            (list.push limits growing value)
          have step : pushCopies limits growing value (first :: rest).length list =
              pushCopies limits growing value rest.length (list.push limits growing value) :=
            if_pos full
          have lengths := congrArg List.length items
          rw [length_items, length_items] at lengths
          rw [← step, length_push] at longer
          omega
      · intro full
        rw [pushCopies_full full]

omit alive in
theorem drop_eq_self_iff {items : List Bytes} {count : Nat} (most : count ≤ items.length) :
    items.drop count = items ↔ count = 0 := by
  constructor
  · intro same
    have lengths := congrArg List.length same
    rw [List.length_drop] at lengths
    omega
  · rintro rfl
    exact List.drop_zero

omit alive in
theorem judged_pushedOutcome {stored : Slot σ} {list : RedisList} {version : UInt16}
    {limit : Int} {values : List Bytes} (alive : stored.dead clock now = false)
    (isList : stored.entry.value.asList = some list)
    (accepted : client.nextVersion (some stored.entry.version) = some version) :
    let popped := poppedCount limit list.length values.length
    let skipped := skippedCount limit list.length values.length
    let taken := takenCount limit limits.listMaxSize list.length values.length
    Judged clock now (some stored)
      ((popped = 0 ∧ skipped = 0 ∧ taken = 0) ∨ (client.Untouched stored ∧
        (growing.aged list.items).drop popped ++ (values.drop skipped).take taken =
          growing.aged list.items)) (pushList limits growing limit values (some list) >>=
        pushedOutcome client version (values.length + 2) (some stored.entry.version)) := by
  intro popped skipped taken
  by_cases fits : values.length + 2 < 2 ^ 31 ∧
      (contents (some list)).length + values.length < 2 ^ 31
  · obtain ⟨after, ran, pushed⟩ :=
      @pushList_eq limits growing limit values (some list) fits.1 fits.2
    have length : (contents (some list)).length = list.length := length_items list
    rw [length] at ran pushed
    obtain ⟨left, rfl⟩ := Option.isSome_iff_exists.mp (pushed.isSome (.inl rfl))
    have aged : growing.aged left.items =
        (growing.aged list.items).drop popped ++ (values.drop skipped).take taken := pushed.aged
    have content : (Robj.list left : Robj σ).content = stored.entry.value.content ↔
        (growing.aged list.items).drop popped ++ (values.drop skipped).take taken =
          growing.aged list.items := by
      rw [value_of_asList isList, ← aged]
      constructor
      · intro same
        exact congrArg growing.aged (Content.list.inj same)
      · intro same
        exact congrArg Content.list (growing.aged_injective same)
    rw [ran]
    refine judged_change ?_
    dsimp only
    by_cases idle : skipped + taken = 0
    · have nothing : ¬ (2 + ((skipped + taken : Nat) : Int)) ≠ 2 := by omega
      have none : skipped = 0 ∧ taken = 0 := by omega
      have most : popped ≤ (growing.aged list.items).length := by
        rw [End.length_aged, length_items]
        exact Nat.min_le_left ..
      rw [if_neg nothing]
      change (Change.store _ stored.entry.version .keep).Unseen _ _ _ ↔ _
      rw [unseen_back_iff alive, content, none.1, none.2, List.take_zero, List.append_nil,
        drop_eq_self_iff most]
      constructor
      · intro zero
        exact .inl ⟨zero, rfl, rfl⟩
      · rintro (zero | same)
        · exact zero.1
        · exact same.2
    · have something : (2 + ((skipped + taken : Nat) : Int)) ≠ 2 := by omega
      have busy : ¬ (popped = 0 ∧ skipped = 0 ∧ taken = 0) := by omega
      rw [if_pos something, unseen_write_iff alive accepted, content, or_iff_right busy]
  · rw [pushList_overflow fits]
    intro out bad
    cases bad

theorem judged_push (limit : Int) (values : List Bytes) :
    Judged clock now slot (PushUnseen limits growing client limit values now slot)
      (pushAction limits growing client limit values (slot.map Slot.entry)) := by
  cases slot with
  | none =>
    intro out ran error
    change (pushList limits growing limit values none >>=
      pushedOutcome client _ (values.length + 2) none) = .ok out at ran
    obtain ⟨⟨after, last⟩, pushed, ran⟩ := ok_of_bind ran
    cases after with
    | none => cases ran
    | some list =>
      have some : last ≠ 2 := by
        rintro rfl
        cases pushList_none pushed
      cases ran
      dsimp only
      rw [if_pos some, unseen_create_iff]
      change _ ↔ 0 < client.expiretime ∧ client.expiretime < now
      unfold Client.expireOrNot
      split_ifs with pos zero
      · constructor
        · rintro ⟨expire, same, _, past⟩
          cases same
          exact ⟨pos, past⟩
        · rintro ⟨_, past⟩
          exact ⟨_, rfl, le_of_lt pos, past⟩
      · exact iff_of_false (by rintro ⟨_, bad, _⟩; cases bad) (by omega)
      · exact iff_of_false (by rintro ⟨_, bad, _⟩; cases bad) (by omega)
  | some stored =>
    rw [Option.map_some, pushAction_some]
    exact judged_guarded fun list version isList accepted =>
      judged_pushedOutcome limits growing (alive stored rfl) isList accepted

end Lists

/-! ### All commands -/

def RefusalUnseen (server : Server σ) (client : Client) (now : Int) :
    Command σ → Option (Slot σ) → Prop
  | .push growing maxCount values, slot =>
    PushUnseen server.settings.toLimits growing client maxCount values now slot
  | .pushx _ _, slot => PushxUnseen server.settings.toLimits client slot
  | .hset _ _, slot => slot.isSome
  | .hmset pairs, slot => HmsetUnseen client pairs slot
  | .hincrby field _, slot => HincrbyUnseen client field slot
  | .sadd _, slot => slot.isSome
  | .zadd _ _ _, slot => slot.isSome
  | _, _ => True

section All

variable [LinearOrder σ] {server : Server σ} {client : Client} {clock : UInt32} {now : Int}
  {slot : Option (Slot σ)}

theorem judged_command (command : Command σ)
    (alive : ∀ found, slot = some found → found.dead clock now = false)
    (sound : ∀ stored set, slot = some stored → stored.entry.value = .set set → set.Sound) :
    Judged clock now slot (RefusalUnseen server client now command slot)
      (command.action server client (slot.map Slot.entry)) := by
  cases command with
  | push growing limit values => exact judged_push _ growing alive limit values
  | pushx growing values => exact judged_pushx _ growing alive values
  | hset field value => exact judged_hset _ alive field value
  | hmset pairs => exact judged_hmset _ alive pairs
  | hincrby field incr => exact judged_hincrby _ alive field incr
  | sadd member => exact judged_sadd _ alive member sound
  | zadd incr member score => exact judged_zadd _ alive _ incr member score
  | set nx value expire => exact quiet_set nx value expire _
  | getset value => exact quiet_getset value _
  | incrby initValue incr => exact quiet_incrby initValue incr _
  | linsert place refval value => exact quiet_linsert _ alive place refval value
  | lset index value => exact quiet_lset _ alive index value
  | hsetnx field value => exact quiet_hsetnx _ field value _
  | hdel field => exact quiet_hdel field _
  | hget field => exact quiet_hget field _
  | hexists field => exact quiet_hexists field _
  | filter field => exact quiet_filter field _
  | srem member => exact quiet_srem member _
  | zrem member => exact quiet_zrem member _
  | zremrangebyscore low high => exact quiet_zremrangebyscore _ low high _
  | zremrangebyrank first last => exact quiet_zremrangebyrank first last _
  | zcount first last => exact quiet_zcount _ first last _
  | «exists» | type => cases slot <;> exact judged_answered rfl
  | get | llen | hlen | hgetall | scard | smembers | zcard =>
    exact quiet_read fun _ _ => judged_answered rfl
  | hmget fields =>
    exact quiet_read fun _ _ => judged_bind fun got _ => judged_answered rfl
  | ltrim | lrem => exact quiet_written fun _ _ _ _ _ => judged_answered rfl
  | spop choice =>
    exact quiet_written fun _ _ _ _ _ => judged_bind fun element _ => judged_answered rfl
  | pop place count =>
    refine quiet_read fun entry list => ?_
    split_ifs
    · exact judged_answered rfl
    · exact judged_versioned (fun _ => trivial) fun _ _ => judged_answered rfl
  | lindex | lrange =>
    refine quiet_read fun entry list => ?_
    split
    · exact judged_refuse _ _ trivial
    · exact judged_answered rfl
  | zrange | zscore =>
    refine quiet_read fun entry nodes => ?_
    split
    · exact judged_answered rfl
    · exact judged_answered rfl
  | zrangebyscore | zrank =>
    refine quiet_read fun entry nodes => ?_
    dsimp only
    split
    · exact judged_answered rfl
    · exact judged_answered rfl

/-- A command that answers with an error has left what clients see of every key exactly in the
cases that `RefusalUnseen` tells. -/
theorem refused_unseen_iff {db after : RedisDb σ} {key : Bytes} {outcome : Outcome σ}
    (server : Server σ) (client : Client) (command : Command σ) (tidy : db.Tidy)
    (sound : ∀ slot set, db.live now key = some slot → slot.entry.value = .set set → set.Sound)
    (ran : db.run now key (command.action server client) = .ok (after, outcome))
    (refused : outcome.code.isError) :
    (∀ other, after.visible now other = db.visible now other) ↔
      RefusalUnseen server client now command (db.live now key) := by
  rw [visible_run_iff tidy ran]
  refine judged_command command ?_ sound outcome (RedisDb.changed_run tidy ran).1 refused
  intro found live
  have test := (Option.filter_eq_some_iff.mp live).2
  simpa using test

end All

def smallServer (size : Int) : Server Nat :=
  { settings :=
      { smallLists size with
        hashMaxZipmapEntries := 512
        hashMaxZipmapValue := 64
        hashMaxSize := size
        setMaxIntsetEntries := 512
        setMaxSize := size
        zsetMaxSize := size }
    scores := ⟨fun left right => some (left + right), id⟩ }

def storedValue (value : Robj Nat) : RedisDb Nat :=
  { dict := AList.singleton [107] { value, version := 1, logiclock := 1 }
    expires := ∅
    logiclock := 1
    needRemoveKey := 0 }

/-- A hash that is full refuses a new field. -/
theorem refused_unseen_hset :
    ∃ after outcome,
      (storedValue (.hash (.zipmap [⟨[97], 0, [49]⟩]))).run 5 [107]
        ((Command.hset ⟨[98], 0⟩ [50]).action (smallServer 1) ⟨0, true, -1⟩) =
          .ok (after, outcome) ∧
      outcome.code = .errDataLenLimited ∧
      ∀ other, after.visible 5 other =
        (storedValue (.hash (.zipmap [⟨[97], 0, [49]⟩]))).visible 5 other :=
  ⟨_, _, rfl, rfl,
    (@refused_unseen_iff Nat _ 5 (storedValue (.hash (.zipmap [⟨[97], 0, [49]⟩]))) _ [107] _
      (smallServer 1) ⟨0, true, -1⟩ (.hset ⟨[98], 0⟩ [50]) (fun _ _ => rfl)
      (fun slot set live isSet => by
        cases live
        cases isSet) rfl rfl).mpr rfl⟩

/-- Two values are pushed to a list that has room for one: the answer is an error, and the first
value is there. -/
theorem refused_push_seen :
    ∃ after outcome,
      (storedValue (.list (.ziplist [[97]]))).run 5 [107]
        ((Command.push .tail 0 [[98], [99]]).action (smallServer 2) ⟨0, true, -1⟩) =
          .ok (after, outcome) ∧
      outcome.code = .errDataLenLimited ∧
      (storedValue (.list (.ziplist [[97]]))).visible 5 [107] =
        some ⟨.list [[97]], 1, none⟩ ∧
      after.visible 5 [107] = some ⟨.list [[97], [98]], 2, none⟩ :=
  ⟨_, _, rfl, rfl, rfl, rfl⟩

end Tair.Rdb
