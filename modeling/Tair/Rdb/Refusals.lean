/-
Commands that answer with an error. What a client sees of a key is compared before and after; the
commands here have changed at most the encoding of an object.
-/

import Tair.Rdb.HashEntries
import Tair.Rdb.Slots

namespace Tair.Rdb

open Tair.Library RedisList

variable {σ : Type}

def RedisCode.isError : RedisCode → Bool
  | .ok => false
  | .okNotExist => false
  | .okButAlreadyExist => false
  | .okButCzero => false
  | .okRangeHaveNone => false
  | .errVersionError => true
  | .errWrongTypeError => true
  | .errDataLenLimited => true
  | .errOutOfRange => true
  | .errIsNotInteger => true
  | .errIsNotNumber => true
  | .errCnegoError => true
  | .errWrongNumberArguments => true

/-! ### Changes that no client sees -/

def seen (clock : UInt32) (now : Int) (slot : Option (Slot σ)) : Option (Visible σ) :=
  (slot.filter fun slot => !slot.dead clock now).map Slot.visible

def Change.Unseen (clock : UInt32) (now : Int) (slot : Option (Slot σ)) (change : Change σ) :
    Prop :=
  seen clock now (change.apply clock slot) = seen clock now slot

theorem seen_live (db : RedisDb σ) (now : Int) (key : Bytes) :
    seen db.logiclock now (db.live now key) = db.visible now key := by
  unfold seen RedisDb.visible RedisDb.live
  rw [Option.filter_filter]
  simp only [Bool.and_self]

theorem visible_run_iff {db after : RedisDb σ} {now : Int} {key : Bytes} {action : Action σ}
    {out : Outcome σ} (tidy : db.Tidy) (ran : db.run now key action = .ok (after, out)) :
    (∀ other, after.visible now other = db.visible now other) ↔
      out.change.Unseen db.logiclock now (db.live now key) := by
  have changed := (RedisDb.changed_run tidy ran).2
  have here : after.visible now key =
      seen db.logiclock now (out.change.apply db.logiclock (db.live now key)) := by
    rw [← changed.here, ← changed.clock]
    rfl
  unfold Change.Unseen
  rw [seen_live, ← here]
  constructor
  · intro same
    exact same key
  · intro same other
    by_cases own : other = key
    · rw [own]
      exact same
    · have kept : after.visible now other = seen after.logiclock now (after.slot other) := rfl
      rw [kept, changed.elsewhere other own, changed.clock]
      rfl

section Changes

variable {clock : UInt32} {now : Int} {slot : Slot σ}

theorem seen_alive (alive : slot.dead clock now = false) :
    seen clock now (some slot) = some slot.visible := by
  unfold seen
  rw [Option.filter_some, alive]
  rfl

/-- An object stored over another one is not seen when the content, the version and the time to
expire are as they were. -/
theorem unseen_store_iff (alive : slot.dead clock now = false) {value : Robj σ}
    {version : UInt16} {timing : ExpireChange} :
    (Change.store value version timing).Unseen clock now (some slot) ↔
      value.content = slot.entry.value.content ∧ version = slot.entry.version ∧
        timing.apply slot.expire = slot.expire := by
  let stored : Slot σ :=
    { entry := { value, version, logiclock := slot.entry.logiclock }
      expire := timing.apply slot.expire }
  have applied : (Change.store value version timing).apply clock (some slot) = some stored := rfl
  unfold Change.Unseen
  rw [applied, seen_alive alive]
  constructor
  · intro same
    unfold seen at same
    rw [Option.filter_some] at same
    split_ifs at same
    · have visible := Option.some.inj same
      exact ⟨congrArg Visible.content visible, congrArg Visible.version visible,
        congrArg Visible.expire visible⟩
    · cases same
  · rintro ⟨content, sameVersion, sameExpire⟩
    have stillAlive : stored.dead clock now = false := by
      rw [← alive]
      unfold Slot.dead
      rw [show stored.expire = slot.expire from sameExpire]
    rw [seen_alive stillAlive]
    unfold Slot.visible
    rw [show stored.entry.value.content = _ from content,
      show stored.entry.version = _ from sameVersion,
      show stored.expire = slot.expire from sameExpire]

/-- An object stored where there was none is not seen only if its time is over at once. -/
theorem unseen_create_iff {value : Robj σ} {version : UInt16} {timing : ExpireChange} :
    (Change.store value version timing).Unseen clock now none ↔
      ∃ expire, timing.apply none = some expire ∧ 0 ≤ expire ∧ expire < now := by
  let stored : Slot σ :=
    { entry := { value, version, logiclock := clock }, expire := timing.apply none }
  have applied : (Change.store value version timing).apply clock none = some stored := rfl
  have dead : stored.dead clock now =
      (timing.apply none).any fun expire => 0 ≤ expire ∧ expire < now := by
    unfold Slot.dead
    simp [stored]
  unfold Change.Unseen
  rw [applied]
  unfold seen
  rw [Option.filter_some, dead]
  cases timing.apply none with
  | none => simp
  | some expire => simp

end Changes

/-! ### Refusals -/

/-- Where a command ends with an error, its change is unseen exactly on a condition. -/
def Judged (clock : UInt32) (now : Int) (slot : Option (Slot σ)) (condition : Prop)
    (result : Except Fault (Outcome σ)) : Prop :=
  ∀ outcome, result = .ok outcome → outcome.code.isError →
    (outcome.change.Unseen clock now slot ↔ condition)

section Judgements

variable {τ : Type} {clock : UInt32} {now : Int} {slot : Option (Slot σ)} {condition : Prop}
  {entry : Entry σ} {client : Client} {project : Robj σ → Option τ}

theorem judged_answered {out : Outcome σ} (fine : out.code.isError = false) :
    Judged clock now slot condition (.ok out) := by
  intro other same error
  cases same
  rw [fine] at error
  cases error

theorem judged_change_of_error {out : Outcome σ}
    (judged : out.code.isError → (out.change.Unseen clock now slot ↔ condition)) :
    Judged clock now slot condition (.ok out) := by
  intro other same error
  cases same
  exact judged error

theorem judged_change {out : Outcome σ} (judged : out.change.Unseen clock now slot ↔ condition) :
    Judged clock now slot condition (.ok out) :=
  judged_change_of_error fun _ => judged

theorem judged_refuse (code : RedisCode) (version : UInt16) (holds : condition) :
    Judged clock now slot condition (.ok (.refuse code version)) :=
  judged_change (iff_of_true rfl holds)

theorem judged_bind {α : Type} {computed : Except Fault α} {rest : α → Except Fault (Outcome σ)}
    (judged : ∀ value, computed = .ok value → Judged clock now slot condition (rest value)) :
    Judged clock now slot condition (computed >>= rest) := by
  intro out same error
  obtain ⟨value, ran, same⟩ := ok_of_bind same
  exact judged value ran out same error

theorem judged_typed {act : τ → Except Fault (Outcome σ)}
    (other : project entry.value = none → condition)
    (judged : ∀ value, project entry.value = some value →
      Judged clock now slot condition (act value)) :
    Judged clock now slot condition (typed project entry act) := by
  unfold typed
  cases found : project entry.value with
  | none => exact judged_refuse _ _ (other found)
  | some value => exact judged value found

theorem judged_versioned {act : UInt16 → Except Fault (Outcome σ)}
    (other : client.nextVersion (some entry.version) = none → condition)
    (judged : ∀ version, client.nextVersion (some entry.version) = some version →
      Judged clock now slot condition (act version)) :
    Judged clock now slot condition (versioned client entry act) := by
  unfold versioned
  cases found : client.nextVersion (some entry.version) with
  | none => exact judged_refuse _ _ (other found)
  | some version => exact judged version found

theorem judged_onExisting {act : Entry σ → τ → Except Fault (Outcome σ)}
    {found : Option (Entry σ)} (absent : found = none → condition)
    (judged : ∀ entry, found = some entry →
      Judged clock now slot condition (typed project entry (act entry))) :
    Judged clock now slot condition (onExisting project act found) := by
  cases found with
  | none => exact judged_refuse _ _ (absent rfl)
  | some entry => exact judged entry rfl

theorem judged_guarded {act : τ → UInt16 → Except Fault (Outcome σ)} {C : τ → Prop}
    (judged : ∀ value version, project entry.value = some value →
      client.nextVersion (some entry.version) = some version →
        Judged clock now slot (C value) (act value version)) :
    Judged clock now slot (∀ value, project entry.value = some value →
        (client.nextVersion (some entry.version)).isSome → C value)
      (typed project entry fun value => versioned client entry (act value)) := by
  refine judged_typed (fun none value isValue => ?_) fun value isValue =>
    judged_versioned (fun refused _ _ accepted => ?_) fun version accepted out ran error => ?_
  · cases none.symm.trans isValue
  · rw [refused] at accepted
    cases accepted
  · rw [judged value version isValue accepted out ran error]
    constructor
    · intro holds other otherValue _
      cases isValue.symm.trans otherValue
      exact holds
    · intro holds
      exact holds value isValue (Option.isSome_of_eq_some accepted)

end Judgements

/-! ### Commands whose errors are never seen -/

abbrev Quiet (clock : UInt32) (now : Int) (slot : Option (Slot σ))
    (result : Except Fault (Outcome σ)) : Prop := Judged clock now slot True result

section Quiet

variable {τ : Type} {clock : UInt32} {now : Int} {slot : Option (Slot σ)} {client : Client}
  {project : Robj σ → Option τ} {found : Option (Entry σ)}

/-- A command that looks at the type of the object and then at the version. -/
theorem quiet_written {act : Entry σ → τ → UInt16 → Except Fault (Outcome σ)}
    (quiet : ∀ entry value version, found = some entry → project entry.value = some value →
      Quiet clock now slot (act entry value version)) :
    Quiet clock now slot (onExisting project
      (fun entry value => versioned client entry (act entry value)) found) :=
  judged_onExisting (fun _ => trivial) fun entry same =>
    judged_typed (fun _ => trivial) fun value typed =>
      judged_versioned (fun _ => trivial) fun version _ => quiet entry value version same typed

theorem quiet_read {act : Entry σ → τ → Except Fault (Outcome σ)}
    (quiet : ∀ entry value, Quiet clock now slot (act entry value)) :
    Quiet clock now slot (onExisting project act found) :=
  judged_onExisting (fun _ => trivial) fun entry _ =>
    judged_typed (fun _ => trivial) fun value _ => quiet entry value

theorem unseen_restore {slot : Slot σ} {list same : RedisList}
    (alive : slot.dead clock now = false) (isList : slot.entry.value.asList = some list)
    (items : same.items = list.items) :
    (Change.store (.list same) slot.entry.version .keep).Unseen clock now (some slot) := by
  refine (unseen_store_iff alive).mpr ⟨?_, rfl, rfl⟩
  obtain ⟨⟨value, version, logiclock⟩, expire⟩ := slot
  cases value <;> cases isList
  exact congrArg Content.list items

end Quiet

section Commands

variable {clock : UInt32} {now : Int} {slot : Option (Slot σ)} {client : Client}

theorem quiet_set (nx : Bool) (value : Bytes) (expire : Option Int) (found : Option (Entry σ)) :
    Quiet clock now slot (setGenericCommand client nx value expire found) := by
  cases found with
  | none => exact judged_answered rfl
  | some entry =>
    refine judged_typed (fun _ => trivial) fun _ _ =>
      judged_versioned (fun _ => trivial) fun version _ => ?_
    cases nx <;> exact judged_answered rfl

theorem quiet_getset (value : Bytes) (found : Option (Entry σ)) :
    Quiet clock now slot (getsetCommand client value found) := by
  cases found with
  | none => exact judged_answered rfl
  | some entry =>
    exact judged_typed (fun _ => trivial) fun _ _ =>
      judged_versioned (fun _ => trivial) fun _ _ => judged_answered rfl

theorem quiet_incrby (initValue incr : Int) (found : Option (Entry σ)) :
    Quiet clock now slot (incrDecrCommand client initValue incr found) := by
  cases found with
  | none => exact judged_answered rfl
  | some entry =>
    refine judged_typed (fun _ => trivial) fun old _ =>
      judged_versioned (fun _ => trivial) fun version _ => ?_
    cases getLongLongFromObject old with
    | none => exact judged_refuse _ _ trivial
    | some value => exact judged_answered rfl

section Lists

variable (limits : Limits)
  (alive : ∀ found, slot = some found → found.dead clock now = false)

include alive

theorem quiet_linsert (place : End) (refval value : Bytes) :
    Quiet clock now slot
      (linsertCommand limits place client refval value (slot.map Slot.entry)) := by
  refine quiet_written fun entry list version same isList => ?_
  obtain ⟨stored, rfl, rfl⟩ := Option.map_eq_some_iff.mp same
  dsimp only
  split
  · refine judged_change (iff_of_true ?_ trivial)
    exact unseen_restore (alive stored rfl) isList (items_tryConversion ..)
  · exact judged_answered rfl

theorem quiet_lset (index : Int) (value : Bytes) :
    Quiet clock now slot (lsetCommand limits client index value (slot.map Slot.entry)) := by
  refine quiet_written fun entry list version same isList => ?_
  obtain ⟨stored, rfl, rfl⟩ := Option.map_eq_some_iff.mp same
  dsimp only
  split
  · refine judged_change (iff_of_true ?_ trivial)
    exact unseen_restore (alive stored rfl) isList (items_tryConversion ..)
  · exact judged_answered rfl

end Lists

theorem quiet_hsetnx (settings : Settings) (field : FieldArgument) (value : Bytes)
    (found : Option (Entry σ)) :
    Quiet clock now slot (hsetnxCommand settings client field value found) := by
  cases found with
  | none =>
    refine judged_bind fun got _ => ?_
    cases got.2 with
    | some old => exact judged_answered rfl
    | none => exact judged_bind fun set _ => judged_answered rfl
  | some entry =>
    refine judged_typed (fun _ => trivial) fun _ _ =>
      judged_versioned (fun _ => trivial) fun _ _ => judged_bind fun got _ => ?_
    cases got.2 with
    | some old => exact judged_answered rfl
    | none => exact judged_bind fun set _ => judged_answered rfl

theorem quiet_hdel (field : Bytes) (found : Option (Entry σ)) :
    Quiet clock now slot (hdelCommand client field found) := by
  refine quiet_written fun entry hash version _ _ => ?_
  dsimp only
  split_ifs
  · exact judged_answered rfl
  · exact judged_refuse _ _ trivial

/-- Reads of a hash may delete a field, but not with an error. -/
theorem quiet_hget (field : FieldArgument) (found : Option (Entry σ)) :
    Quiet clock now slot (hgetCommand field found) := by
  refine quiet_read fun entry hash => judged_bind fun got _ => ?_
  cases got.2 with
  | none => exact judged_answered rfl
  | some value => exact judged_answered rfl

theorem quiet_hexists (field : FieldArgument) (found : Option (Entry σ)) :
    Quiet clock now slot (hexistsCommand field found) := by
  refine quiet_read fun entry hash => judged_bind fun got _ => ?_
  refine judged_answered ?_
  dsimp only
  split_ifs <;> rfl

theorem quiet_filter (field : FieldArgument) (found : Option (Entry σ)) :
    Quiet clock now slot (filterCommand field found) := by
  cases found with
  | none => exact judged_answered rfl
  | some entry =>
    unfold filterCommand
    dsimp only
    split
    · exact judged_refuse _ _ trivial
    · exact judged_bind fun got _ => judged_answered rfl

theorem quiet_srem (member : Bytes) (found : Option (Entry σ)) :
    Quiet clock now slot (sremCommand client member found) := by
  refine quiet_written fun entry set version _ _ => ?_
  dsimp only
  split_ifs
  · exact judged_answered rfl
  · exact judged_answered rfl

section Zsets

variable [LinearOrder σ]

theorem quiet_zrem (member : Bytes) (found : Option (Entry σ)) :
    Quiet clock now slot (zremCommand client member found) := by
  refine quiet_written fun entry nodes version _ _ => ?_
  dsimp only
  split
  · exact judged_answered rfl
  · exact judged_bind fun left _ => judged_answered rfl

omit [LinearOrder σ] in
theorem quiet_removeRange (entry : Entry σ) (version : UInt16) (nodes left : List (ZslNode σ)) :
    Quiet clock now slot (.ok (removeRange client entry version nodes left)) := by
  unfold removeRange
  split_ifs
  · exact judged_answered rfl
  · exact judged_answered rfl

theorem quiet_zremrangebyscore (ops : ScoreOps σ) (low high : σ) (found : Option (Entry σ)) :
    Quiet clock now slot (zremrangebyscoreCommand ops client low high found) :=
  quiet_written fun entry nodes version _ _ => quiet_removeRange entry version nodes _

omit [LinearOrder σ] in
theorem quiet_zremrangebyrank (first last : Int) (found : Option (Entry σ)) :
    Quiet clock now slot (zremrangebyrankCommand client first last found) := by
  refine quiet_written fun entry nodes version _ _ => ?_
  split
  · exact judged_answered rfl
  · exact quiet_removeRange entry version nodes _

theorem quiet_zcount (ops : ScoreOps σ) (first last : σ) (found : Option (Entry σ)) :
    Quiet clock now slot (zcountCommand ops first last found) := by
  refine quiet_read fun entry nodes => ?_
  dsimp only
  split_ifs <;> exact judged_answered rfl

end Zsets

end Commands

end Tair.Rdb
