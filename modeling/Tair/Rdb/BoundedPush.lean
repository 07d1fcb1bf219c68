/-
A push with a bound on the length of the list keeps the newest elements. The engine's own bound is
applied to the list as it was before the oldest elements made room, so the old elements and the
new ones that are kept must fit side by side.
-/

import Tair.Rdb.List

namespace Tair.Rdb

open Tair.Library RedisList

def cut (growing : End) (maxCount : Int) (items : List Bytes) : List Bytes :=
  if 0 < maxCount then growing.newest maxCount.toNat items else items

/-- What a push is for: the list goes on with the values consumed, cut to its newest elements;
those of the values that fit into the bound are there; old elements go only when the list is
full; the list does not get too long; and the answer tells what was done. -/
structure BoundedPush (growing : End) (maxCount listMaxSize : Int)
    (old new values : List Bytes) (returned : PushReturn) : Prop where
  contents : new = cut growing maxCount
    (growing.pushAll old (values.take returned.pushedNum.toNat))
  fitting : 0 < maxCount → maxCount ≤ listMaxSize →
    values.drop (values.length - maxCount.toNat) <:+ growing.aged new
  replaced : new.length = old.length + returned.pushedNum.toNat ∨ (new.length : Int) = maxCount
  bounded : (new.length : Int) ≤ listMaxSize
  consumed : returned.pushedNum.toNat ≤ values.length
  listLen : returned.listLen.toNat = new.length

/-- The lengths are those of an `int`, the list is not too long already, and when old elements
are to go, the new ones fit beside them all the same. -/
structure Room (maxCount listMaxSize : Int) (length pushed : Nat) : Prop where
  argc : pushed + 2 < 2 ^ 31
  total : length + pushed < 2 ^ 31
  short : (length : Int) ≤ listMaxSize
  beside : 0 < maxCount → maxCount < length + pushed →
    length + min (pushed : Int) maxCount ≤ listMaxSize

section Lists

variable {growing : End} {maxCount listMaxSize : Int} {old new values : List Bytes}
  {popped skipped count : Nat} {gave : PushReturn}

theorem length_new
    (aged : growing.aged new = (growing.aged old).drop popped ++ (values.drop skipped).take count) :
    new.length = old.length - popped + min count (values.length - skipped) := by
  rw [← growing.length_aged new, aged, List.length_append, List.length_drop, End.length_aged,
    List.length_take, List.length_drop]

theorem aged_cut (items : List Bytes) :
    growing.aged (cut growing maxCount items) =
      (growing.aged items).drop (if 0 < maxCount then items.length - maxCount.toNat else 0) := by
  unfold cut
  split_ifs
  · exact growing.aged_dropOldest ..
  · rfl

theorem length_cut (items : List Bytes) :
    (cut growing maxCount items).length =
      if 0 < maxCount then min maxCount.toNat items.length else items.length := by
  rw [← growing.length_aged, aged_cut, List.length_drop, End.length_aged]
  split_ifs <;> omega

theorem boundedPush_of_untrimmed (aged : growing.aged new = growing.aged old ++ values.take count)
    (some : count ≤ values.length)
    (within : 0 < maxCount → (old.length + values.length : Int) ≤ maxCount)
    (whole : (old.length + values.length : Int) ≤ listMaxSize → count = values.length)
    (short : (old.length + count : Int) ≤ listMaxSize)
    (pushedNum : gave.pushedNum.toNat = count) (listLen : gave.listLen.toNat = new.length) :
    BoundedPush growing maxCount listMaxSize old new values gave := by
  have newLength : new.length = old.length + count := by
    rw [← growing.length_aged new, aged, List.length_append, End.length_aged,
      List.length_take_of_le some]
  refine ⟨?_, ?_, .inl (newLength.trans (by rw [pushedNum])), by omega, by omega, listLen⟩
  · apply growing.aged_injective
    have kept : (if 0 < maxCount then (growing.pushAll old (values.take count)).length -
        maxCount.toNat else 0) = 0 := by
      rw [End.length_pushAll, List.length_take_of_le some]
      split_ifs with bounded
      · have := within bounded
        omega
      · rfl
    rw [pushedNum, aged_cut, kept, List.drop_zero, End.aged_pushAll, aged]
  · intro bounded under
    have := within bounded
    rw [aged, whole (by omega), List.take_length]
    exact (List.drop_suffix ..).trans (List.suffix_append ..)

theorem boundedPush_of_trimmed (bounded : 0 < maxCount)
    (passed : maxCount < old.length + values.length) (aged : growing.aged new =
      (growing.aged old).drop (old.length + values.length - maxCount.toNat) ++
        values.drop (values.length - maxCount.toNat))
    (beside : old.length + min (values.length : Int) maxCount ≤ listMaxSize)
    (pushedNum : gave.pushedNum.toNat = values.length) (listLen : gave.listLen.toNat = new.length) :
    BoundedPush growing maxCount listMaxSize old new values gave := by
  have newLength : new.length = maxCount.toNat := by
    rw [← growing.length_aged new, aged, List.length_append, List.length_drop, End.length_aged,
      List.length_drop]
    omega
  refine ⟨?_, ?_, .inr (by omega), by omega, pushedNum.le, listLen⟩
  · apply growing.aged_injective
    have left : old.length + values.length - maxCount.toNat - old.length =
        values.length - maxCount.toNat := by
      omega
    rw [pushedNum, List.take_length, aged_cut, if_pos bounded, End.length_pushAll,
      End.aged_pushAll, List.drop_append, End.length_aged, left, aged]
  · intro _bounded _under
    rw [aged]
    exact List.suffix_append ..

theorem boundedPush_iff (pos : 1 ≤ listMaxSize) (nonempty : 0 < values.length)
    (argc : values.length + 2 < 2 ^ 31) (total : old.length + values.length < 2 ^ 31)
    (popped_eq : popped = poppedCount maxCount old.length values.length)
    (skipped_eq : skipped = skippedCount maxCount old.length values.length)
    (count_eq : count = takenCount maxCount listMaxSize old.length values.length)
    (aged : growing.aged new = (growing.aged old).drop popped ++ (values.drop skipped).take count)
    (pushedNum : gave.pushedNum.toNat = skipped + count)
    (listLen : gave.listLen.toNat = new.length) :
    BoundedPush growing maxCount listMaxSize old new values gave ↔
      Room maxCount listMaxSize old.length values.length := by
  unfold takenCount at count_eq
  rw [← skipped_eq] at count_eq
  have newLength := length_new aged
  rw [Nat.min_eq_left (by omega)] at newLength
  unfold poppedCount keepCount at popped_eq
  unfold skippedCount keepCount at skipped_eq
  by_cases cut : 0 < maxCount ∧ maxCount < old.length + values.length
  · obtain ⟨bounded, passed⟩ := cut
    have keep : min maxCount.toNat (old.length + values.length) = maxCount.toNat := by omega
    rw [if_pos bounded, keep] at popped_eq skipped_eq
    constructor
    · intro pushed
      have length_eq := congrArg List.length pushed.contents
      rw [length_cut, End.length_pushAll, List.length_take_of_le pushed.consumed, if_pos bounded,
        pushedNum] at length_eq
      have countAll : count = values.length - skipped := by omega
      exact ⟨argc, total, by omega, fun _ _ => by omega⟩
    · intro room
      have beside := room.beside bounded passed
      have countAll : count = values.length - skipped := by omega
      refine boundedPush_of_trimmed bounded passed ?_ beside (by omega) listLen
      have allPopped : (growing.aged old).drop popped =
          (growing.aged old).drop (old.length + values.length - maxCount.toNat) := by
        rw [popped_eq, ← growing.length_aged old, List.drop_eq_drop_iff]
        omega
      rw [aged, countAll, allPopped, skipped_eq, ← List.length_drop, List.take_length]
  · have keep : (if 0 < maxCount then min maxCount.toNat (old.length + values.length)
        else old.length + values.length) = old.length + values.length := by
      split_ifs <;> omega
    rw [keep, Nat.sub_self, Nat.min_zero] at popped_eq
    rw [keep, Nat.sub_eq_zero_of_le (Nat.le_add_left ..)] at skipped_eq
    rw [popped_eq, skipped_eq, List.drop_zero, List.drop_zero] at aged
    constructor
    · intro pushed
      have := pushed.bounded
      exact ⟨argc, total, by omega, fun bounded passed => absurd ⟨bounded, passed⟩ cut⟩
    · intro room
      have := room.short
      exact boundedPush_of_untrimmed aged (by omega) (by omega) (by omega) (by omega) (by omega)
        listLen

end Lists

/-! ### The command -/

section Command

variable {σ : Type} {limits : Limits} {growing : End} {client : Client} {maxCount now : Int}
  {key : Bytes} {values : List Bytes} {db live : RedisDb σ} {found : Option (Entry σ)}
  {list : Option RedisList} {version : UInt16}

theorem storePushed_eq (client : Client) (key : Bytes) (version : UInt16) (db : RedisDb σ)
    (argc : Nat) {list : RedisList} {pushed : Nat} (few : pushed < 2 ^ 32)
    (short : list.length < 2 ^ 32) :
    ∃ (after : RedisDb σ) (code : RedisCode) (gave : PushReturn),
      storePushed client key version argc db (some list, 2 + (pushed : Int)) =
        .ok (after, code, some gave) ∧
      after.valueOf key = some (.list list) ∧
      gave.pushedNum.toNat = pushed ∧ gave.listLen.toNat = list.length := by
  refine ⟨_, _, _, rfl, ?_, ?_, UInt32.toNat_ofNat_of_lt short⟩
  rotate_left
  · rw [add_sub_cancel_left, Int.toNat_natCast]
    exact UInt32.toNat_ofNat_of_lt few
  have stored := RedisDb.valueOf_mutate _ key (.list list)
    (RedisDb.isSome_dbAdd db key version (.list list))
  split_ifs
  · rw [RedisDb.valueOf_expireOrNot, RedisDb.valueOf_dbUpdateKey]
    exact stored
  · exact stored

theorem pushList_overflow {maxCount : Int}
    (long : ¬ (values.length + 2 < 2 ^ 31 ∧ (contents list).length + values.length < 2 ^ 31)) :
    pushList limits growing maxCount values list = .error .intOverflow := by
  unfold pushList
  by_cases argc : values.length + 2 < 2 ^ 31
  · have argcFits : toInt ((values.length : Int) + 2) = .ok (values.length + 2) :=
      toInt_of_fits (by omega) (by omega)
    rw [argcFits, ← RedisList.length_contents]
    by_cases length : (contents list).length < 2 ^ 31
    · have lengthFits : toInt ((contents list).length : Int) =
          .ok ((contents list).length : Int) :=
        toInt_of_fits (by omega) (by omega)
      rw [lengthFits]
      change (pushPlan maxCount limits.listMaxSize (values.length + 2) (contents list).length
        >>= _) = _
      rw [pushPlan_overflow fun total => long ⟨argc, total⟩]
      rfl
    · rw [toInt_of_long (by omega)]
      rfl
  · rw [toInt_of_long (by omega)]
    rfl

theorem takenCount_pos {listMaxSize : Int} (pos : 1 ≤ listMaxSize) {pushed : Nat}
    (some : 0 < pushed) : 0 < takenCount maxCount listMaxSize 0 pushed := by
  unfold takenCount skippedCount keepCount
  split_ifs <;> omega

theorem push_eq (growing : End) (client : Client) (maxCount : Int) (key : Bytes)
    (version : UInt16) (live : RedisDb σ) (pos : 1 ≤ limits.listMaxSize)
    (nonempty : 0 < values.length) (argc : values.length + 2 < 2 ^ 31)
    (total : (contents list).length + values.length < 2 ^ 31) :
    let length := (contents list).length
    let skipped := skippedCount maxCount length values.length
    let count := takenCount maxCount limits.listMaxSize length values.length
    ∃ (after : RedisDb σ) (code : RedisCode) (gave : PushReturn) (stored : RedisList),
      (pushList limits growing maxCount values list >>=
          storePushed client key version (values.length + 2) live) =
        .ok (after, code, some gave) ∧
      after.valueOf key = some (.list stored) ∧
      gave.pushedNum.toNat = skipped + count ∧
      gave.listLen.toNat = stored.items.length ∧
      growing.aged stored.items =
        (growing.aged (contents list)).drop (poppedCount maxCount length values.length) ++
          (values.drop skipped).take count := by
  intro length skipped count
  obtain ⟨left, ran, pushed⟩ :=
    @pushList_eq limits growing maxCount values list argc total
  have there : left.isSome := by
    apply pushed.isSome
    cases list with
    | none => exact .inr (takenCount_pos pos nonempty)
    | some list => exact .inl rfl
  obtain ⟨stored, same⟩ := Option.isSome_iff_exists.mp there
  subst same
  have most : count ≤ values.length - skipped := Nat.sub_le ..
  have least : skipped ≤ values.length := Nat.sub_le ..
  have storedLength : stored.items.length = _ := length_new pushed.aged
  rw [RedisList.length_items] at storedLength
  obtain ⟨after, code, gave, done, value, pushedNum, listLen⟩ :=
    storePushed_eq client key version live (values.length + 2)
      (show skipped + count < 2 ^ 32 by omega) (show stored.length < 2 ^ 32 by omega)
  refine ⟨after, code, gave, stored, ?_, value, pushedNum, ?_, pushed.aged⟩
  · rw [ran]
    exact done
  · rw [RedisList.length_items]
    exact listLen

/-- A push to a key that holds a list or nothing does what it is for exactly when there is
room. -/
theorem push_bounded_iff (positive : 1 ≤ limits.listMaxSize) (nonempty : values ≠ [])
    (looked : db.lookupKeyWriteWithVersion now key = .ok (live, found))
    (typed : listOf found = some list)
    (accepted : client.nextVersion (found.map Entry.version) = some version) :
    (∃ (after : RedisDb σ) (code : RedisCode) (returned : PushReturn) (stored : RedisList),
      pushnGenericCommand limits growing client maxCount key values now db =
        .ok (after, code, some returned) ∧
      after.valueOf key = some (.list stored) ∧
      BoundedPush growing maxCount limits.listMaxSize (contents list) stored.items values
        returned) ↔
      Room maxCount limits.listMaxSize (contents list).length values.length := by
  have isPush : pushnGenericCommand limits growing client maxCount key values now db =
      (pushList limits growing maxCount values list >>=
        storePushed client key version (values.length + 2) live) := by
    unfold pushnGenericCommand
    rw [looked]
    change pushFound limits growing client maxCount key values live (listOf found)
      (client.nextVersion (found.map Entry.version)) = _
    rw [typed, accepted]
    rfl
  rw [isPush]
  by_cases fits : values.length + 2 < 2 ^ 31 ∧ (contents list).length + values.length < 2 ^ 31
  · obtain ⟨argc, total⟩ := fits
    have some := List.length_pos_iff.mpr nonempty
    obtain ⟨after, code, returned, stored, ran, value, pushedNum, listLen, aged⟩ :=
      push_eq growing client maxCount key version live positive some argc total
    have pushed := boundedPush_iff positive some argc total rfl rfl rfl aged pushedNum listLen
    rw [ran, ← pushed]
    constructor
    · rintro ⟨_, _, _, other, same, otherValue, bounded⟩
      cases same
      cases value.symm.trans otherValue
      exact bounded
    · intro bounded
      exact ⟨after, code, returned, stored, rfl, value, bounded⟩
  · rw [pushList_overflow fits]
    constructor
    · rintro ⟨after, code, returned, stored, impossible, _⟩
      cases impossible
    · intro room
      exact absurd ⟨room.argc, room.total⟩ fits

end Command

def singleList (item : Bytes) : RedisDb Nat :=
  { dict := AList.singleton [107]
      { value := .list (.ziplist [item])
        version := 1
        logiclock := 1 }
    expires := ∅
    logiclock := 1
    needRemoveKey := 0 }

def smallLists (listMaxSize : Int) : Limits :=
  { listMaxZiplistEntries := 512
    listMaxZiplistValue := 64
    listMaxSize }

theorem push_bounded_two :
    ∃ (after : RedisDb Nat) (code : RedisCode) (returned : PushReturn) (stored : RedisList),
      pushnGenericCommand (smallLists 2) .tail ⟨0, true, -1⟩ 1 [107] [[98]] 5
          (singleList [97]) =
        .ok (after, code, some returned) ∧
      after.valueOf [107] = some (.list stored) ∧
      BoundedPush .tail 1 2 [[97]] stored.items [[98]] returned :=
  (@push_bounded_iff Nat (smallLists 2) .tail ⟨0, true, -1⟩ 1 5 [107] [[98]] (singleList [97])
    (singleList [97]) _ (some (.ziplist [[97]])) _ (by decide) (by decide) rfl rfl rfl).mpr
    ⟨by decide, by decide, by decide, by decide⟩

/-- The only element is dropped for a value that is not stored. -/
theorem push_loses_only_element :
    ∃ (after : RedisDb Nat),
      pushnGenericCommand (smallLists 1) .tail ⟨0, true, -1⟩ 1 [107] [[98]] 5
          (singleList [97]) =
        .ok (after, .errDataLenLimited, some ⟨0, 0⟩) ∧
      after.valueOf [107] = some (.list (.ziplist [])) ∧
      ¬ BoundedPush .tail 1 1 [[97]] [] [[98]] ⟨0, 0⟩ := by
  refine ⟨_, rfl, rfl, ?_⟩
  intro pushed
  have := pushed.contents
  revert this
  decide

end Tair.Rdb
