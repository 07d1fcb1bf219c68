/-
A member popped from a set. The session copies the bytes of the member's object as if it always
were a string, so it comes back exactly when it is not kept as an integer.
-/

import Tair.Rdb.Decimal
import Tair.Rdb.Slots

namespace Tair.Rdb

open Tair.Library

variable {σ : Type}

/-! ### Sets as the commands build them -/

namespace RedisSet

/-- No member twice, and every member encoded. -/
structure Sound (set : RedisSet) : Prop where
  nodup : (set.objects.map StringObject.decoded).Nodup
  encoded : ∀ member ∈ set.objects, member.Encoded

theorem sound_append {members : List StringObject} {value : StringObject}
    (sound : Sound (.table members)) (encoded : value.Encoded)
    (fresh : value.decoded ∉ members.map StringObject.decoded) :
    Sound (.table (members ++ [value])) where
  nodup := by
    change ((members ++ [value]).map StringObject.decoded).Nodup
    rw [List.map_append]
    exact List.nodup_append_comm.mp (List.nodup_cons.mpr ⟨fresh, sound.nodup⟩)
  encoded := by
    intro member inSet
    rcases List.mem_append.mp inSet with old | new
    · exact sound.encoded member old
    · rw [List.mem_singleton.mp new]
      exact encoded

theorem sound_intset_insert {numbers : List Int} {number : Int} (sound : Sound (.intset numbers))
    (encoded : (StringObject.int number).Encoded) (fresh : number ∉ numbers) :
    Sound (.intset (numbers.orderedInsert (· ≤ ·) number)) := by
  have shuffled := (List.perm_orderedInsert (· ≤ ·) number numbers).map StringObject.int
  refine ⟨?_, ?_⟩
  · refine ((shuffled.map StringObject.decoded).nodup_iff).mpr (List.nodup_cons.mpr ⟨?_, ?_⟩)
    · intro member
      obtain ⟨object, inSet, same⟩ := List.mem_map.mp member
      obtain ⟨other, there, rfl⟩ := List.mem_map.mp inSet
      exact fresh (ll2string_injective same ▸ there)
    · exact sound.nodup
  · intro member inSet
    rcases List.mem_cons.mp (shuffled.mem_iff.mp inSet) with rfl | old
    · exact encoded
    · exact sound.encoded member old

theorem sound_add (settings : Settings) {set : RedisSet} {value : StringObject}
    (sound : set.Sound) (encoded : value.Encoded) : (set.add settings value).1.Sound := by
  cases set with
  | table members =>
    unfold add
    dsimp only
    split_ifs with here
    · exact sound
    · exact sound_append sound encoded (fun member =>
        here (Keyed.isSome_find_iff.mpr member))
  | intset numbers =>
    cases value with
    | raw bytes =>
      have none : representedLong bytes = none := encoded
      have added : (add settings (.intset numbers) (.raw bytes)).1 =
          .table (numbers.map StringObject.int ++ [.raw bytes]) := by
        simp only [add, StringObject.asLong, none]
      rw [added]
      refine sound_append ⟨sound.nodup, sound.encoded⟩ encoded fun member => ?_
      obtain ⟨object, inSet, same⟩ := List.mem_map.mp member
      have integer := (sound.encoded object inSet).represented
      obtain ⟨number, _, rfl⟩ := List.mem_map.mp inSet
      rw [same] at integer
      cases none.symm.trans integer
    | int number =>
      unfold add
      dsimp only [StringObject.asLong]
      split_ifs with here many
      · exact sound
      · have inserted := sound_intset_insert sound encoded here
        exact ⟨inserted.nodup, inserted.encoded⟩
      · exact sound_intset_insert sound encoded here

def memberAt (set : RedisSet) (choice : Nat) : Option StringObject :=
  set.objects[choice % set.size]?

theorem length_objects (set : RedisSet) : set.objects.length = set.size := by
  cases set with
  | intset members => exact List.length_map _
  | table members => rfl

theorem randomElement_eq {set : RedisSet} {choice : Nat} {member : StringObject}
    (chosen : set.memberAt choice = some member) : set.randomElement choice = .ok member := by
  cases set with
  | table members =>
    unfold memberAt at chosen
    unfold randomElement
    dsimp only
    change members[choice % members.length]? = some member at chosen
    rw [chosen]
  | intset members =>
    change (members.map StringObject.int)[choice % members.length]? = some member at chosen
    rw [List.getElem?_map] at chosen
    obtain ⟨number, here, rfl⟩ := Option.map_eq_some_iff.mp chosen
    unfold randomElement
    dsimp only
    rw [here]

theorem exists_memberAt {set : RedisSet} (nonempty : 0 < set.size) (choice : Nat) :
    ∃ member, set.memberAt choice = some member ∧ member ∈ set.objects := by
  have inside : choice % set.size < set.objects.length := by
    rw [length_objects]
    exact Nat.mod_lt _ nonempty
  exact ⟨_, List.getElem?_eq_getElem inside, List.getElem_mem inside⟩

theorem mem_members {set : RedisSet} {bytes : Bytes} :
    bytes ∈ set.members ↔ ∃ member ∈ set.objects, member.decoded = bytes := by
  unfold members
  rw [List.mem_toFinset, List.mem_map]

theorem members_remove {set : RedisSet} (sound : set.Sound) {member : StringObject}
    (inSet : member ∈ set.objects) :
    (set.remove member).1.members = set.members.erase member.decoded := by
  ext bytes
  rw [Finset.mem_erase, mem_members, mem_members]
  cases set with
  | table stored =>
    change (∃ other ∈ Keyed.erase StringObject.decoded stored member.decoded, _) ↔ _
    unfold Keyed.erase
    constructor
    · rintro ⟨other, kept, rfl⟩
      obtain ⟨there, apart⟩ := List.mem_filter.mp kept
      exact ⟨of_decide_eq_true apart, other, there, rfl⟩
    · rintro ⟨apart, other, there, rfl⟩
      exact ⟨other, List.mem_filter.mpr ⟨there, decide_eq_true apart⟩, rfl⟩
  | intset numbers =>
    obtain ⟨number, _, rfl⟩ := List.mem_map.mp inSet
    have single : numbers.Nodup := by
      have nodup := sound.nodup
      change ((numbers.map StringObject.int).map StringObject.decoded).Nodup at nodup
      rw [List.map_map] at nodup
      exact nodup.of_map _
    change (∃ other ∈ (numbers.erase number).map StringObject.int, _) ↔ _
    constructor
    · rintro ⟨other, mapped, rfl⟩
      obtain ⟨left, kept, rfl⟩ := List.mem_map.mp mapped
      obtain ⟨apart, there⟩ := single.mem_erase_iff.mp kept
      exact ⟨fun same => apart (ll2string_injective same), _, List.mem_map_of_mem there, rfl⟩
    · rintro ⟨apart, other, mapped, rfl⟩
      obtain ⟨left, there, rfl⟩ := List.mem_map.mp mapped
      have ne : left ≠ number := by
        rintro rfl
        exact apart rfl
      exact ⟨_, List.mem_map_of_mem (single.mem_erase_iff.mpr ⟨ne, there⟩), rfl⟩

theorem size_eq_zero_iff (set : RedisSet) : set.size = 0 ↔ set.members = ∅ := by
  unfold members
  rw [← length_objects, List.length_eq_zero_iff, List.toFinset_eq_empty_iff, List.map_eq_nil_iff]

end RedisSet

/-! ### The session -/

/-- `redis_db_session::spop`: the code and the item. -/
def sessionSpop (client : Client) (choice : Nat) (now : Int) (key : Bytes) (db : RedisDb σ) :
    Except Fault (RedisDb σ × RedisCode × Option Bytes) := do
  let ran ← db.run now key (spopCommand client choice)
  match ran.2.code, ran.2.answer with
  | .ok, .values (node :: _) => do
    let bytes ← node.read
    pure (ran.1, .ok, some bytes)
  | code, _ => pure (ran.1, code, none)

/-- What a pop is for: one member comes back, the set lacks exactly that member, and the key is
gone exactly when nothing is left. The other keys stay as they are. -/
structure Popped (db after : RedisDb σ) (key : Bytes) (set : RedisSet) (bytes : Bytes) :
    Prop where
  member : bytes ∈ set.members
  gone : after.slot key = none ↔ set.members.erase bytes = ∅
  left : ∀ slot, after.slot key = some slot →
    ∃ rest, slot.entry.value = .set rest ∧ rest.members = set.members.erase bytes
  others : ∀ other, other ≠ key → after.slot other = db.slot other

section Pop

variable {db : RedisDb σ} {now : Int} {key : Bytes} {slot : Slot σ} {set : RedisSet}

theorem spopCommand_eq {client : Client} {choice : Nat} {entry : Entry σ} {version : UInt16}
    {member : StringObject} (isSet : entry.value = .set set)
    (accepted : client.nextVersion (some entry.version) = some version)
    (chosen : set.memberAt choice = some member) :
    spopCommand client choice (some entry) =
      .ok
        { change := storeUnless ((set.remove member).1.size = 0) (.set (set.remove member).1)
            version client.expireOrNot
          code := .ok
          answer := .values [.robj member]
          version := entry.version + 1 } := by
  obtain ⟨value, stored, logiclock⟩ := entry
  cases isSet
  refine (versioned_accepted accepted _).trans ?_
  rw [RedisSet.randomElement_eq chosen]
  rfl

theorem popped_of_changed {after : RedisDb σ} {member : StringObject} {clock : UInt32}
    {version : UInt16} {timing : ExpireChange} (sound : set.Sound) (inSet : member ∈ set.objects)
    (changed : db.Changed after key ((storeUnless ((set.remove member).1.size = 0)
      (.set (set.remove member).1) version timing).apply clock (some slot))) :
    Popped db after key set member.decoded := by
  have rest := RedisSet.members_remove sound inSet
  have bare := RedisSet.size_eq_zero_iff (set.remove member).1
  have here := changed.here
  rw [rest] at bare
  refine ⟨RedisSet.mem_members.mpr ⟨member, inSet, rfl⟩, ?_, ?_, changed.elsewhere⟩
  · rw [here, ← bare]
    by_cases empty : (set.remove member).1.size = 0
    · simp [storeUnless, empty, Change.apply]
    · simp [storeUnless, empty, Change.apply]
  · intro stored found
    rw [here] at found
    by_cases empty : (set.remove member).1.size = 0
    · simp [storeUnless, empty, Change.apply] at found
    · simp only [storeUnless, empty, decide_false, Bool.false_eq_true, if_false,
        Change.apply] at found
      cases found
      exact ⟨_, rfl, rest⟩

/-- A pop of the session brings a member back exactly when the random number falls on one that
is no decimal integer. -/
theorem spop_returns_member_iff (client : Client) (choice : Nat) (tidy : db.Tidy)
    (clocked : db.Clocked key) (found : db.live now key = some slot)
    (isSet : slot.entry.value = .set set) (sound : set.Sound) (nonempty : 0 < set.size)
    (accepted : (client.nextVersion (some slot.entry.version)).isSome) :
    (∃ after bytes, sessionSpop client choice now key db = .ok (after, .ok, some bytes) ∧
      Popped db after key set bytes) ↔
        ∀ member, set.memberAt choice = some member →
          representedLong member.decoded = none := by
  obtain ⟨version, accepted⟩ := Option.isSome_iff_exists.mp accepted
  obtain ⟨member, chosen, inSet⟩ := RedisSet.exists_memberAt nonempty choice
  have acted := spopCommand_eq isSet accepted chosen
  have entry : (db.live now key).map Slot.entry = some slot.entry := by
    rw [found]
    rfl
  rw [← entry] at acted
  obtain ⟨after, ran⟩ := RedisDb.run_of_action tidy clocked acted
  have changed := (RedisDb.changed_run tidy ran).2
  rw [found] at changed
  have session : sessionSpop client choice now key db =
      (ValueNode.robj member : ValueNode σ).read.map fun bytes => (after, .ok, some bytes) := by
    unfold sessionSpop
    rw [ran]
    change ((ValueNode.robj member : ValueNode σ).read >>= fun bytes => _) = _
    cases (ValueNode.robj member : ValueNode σ).read <;> rfl
  rw [session]
  cases member with
  | raw bytes =>
    refine iff_of_true ⟨after, bytes, rfl, popped_of_changed sound inSet changed⟩ ?_
    intro other same
    rw [chosen] at same
    cases same
    exact sound.encoded _ inSet
  | int value =>
    refine iff_of_false ?_ fun decimal => ?_
    · rintro ⟨_, _, impossible, _⟩
      cases impossible
    · have none := decimal _ chosen
      rw [(sound.encoded _ inSet).represented] at none
      cases none

end Pop

def storedSet (set : RedisSet) : RedisDb Nat :=
  { dict := AList.singleton [107] { value := .set set, version := 1, logiclock := 1 }
    expires := ∅
    logiclock := 1
    needRemoveKey := 0 }

theorem clocked_storedSet (set : RedisSet) : (storedSet set).Clocked [107] := by
  intro entry found
  cases found
  change (1 : UInt32) ≠ 0
  decide

def letters : RedisSet := .table [.raw [97], .raw [98], .int 7]

/-- The second of three members is chosen. -/
theorem spop_returns_letter :
    ∃ after bytes,
      sessionSpop ⟨0, true, -1⟩ 4 5 [107] (storedSet letters) = .ok (after, .ok, some bytes) ∧
      Popped (storedSet letters) after [107] letters bytes := by
  have sound : letters.Sound := ⟨by decide, List.forall_mem_cons.mpr ⟨rfl,
    List.forall_mem_cons.mpr ⟨rfl, List.forall_mem_singleton.mpr ⟨by decide, by decide⟩⟩⟩⟩
  refine (spop_returns_member_iff ⟨0, true, -1⟩ 4 (fun _ _ => rfl) (clocked_storedSet letters) rfl
    rfl sound (by decide) rfl).mpr ?_
  intro member chosen
  cases chosen
  rfl

/-- The only member is an integer, and its value is taken for an address. -/
theorem spop_reads_integer_as_pointer :
    (storedSet (.intset [5])).valueOf [107] = some (.set (.intset [5])) ∧
      sessionSpop ⟨0, true, -1⟩ 3 5 [107] (storedSet (.intset [5])) =
        .error .wildPointer :=
  ⟨rfl, rfl⟩

end Tair.Rdb
