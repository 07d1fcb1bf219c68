/-
A bucket over a database whose calls may fail. The database then returns false, and the bucket
looks for a number below zero, so that it takes a failed call for one that was done.
-/

import Tair.Common.Fault
import Tair.Kdb.Bucket
import Tair.Library.Machine

namespace Tair.Kdb

open Function Tair.Common Tair.Library

/-- What a put leaves to be read, and until when. -/
structure Note where
  value : Bytes
  version : UInt16
  flag : UInt8
  edate : UInt32
deriving DecidableEq, Repr

def Note.expired (note : Note) (now : UInt32) : Bool := note.edate ≠ 0 ∧ note.edate < now

/-- What the arguments of a put ask for, over what was noted before. A version goes on from that
of a note that has not expired, and an expiry is a date if it is later than now. -/
def Note.ofPut (before : Option Note) (now : UInt32) (key value : DataEntry) (versionCare : Bool)
    (expireTime : UInt32) : Note where
  value := value.data
  version :=
    if versionCare then (before.filter fun note => !note.expired now).elim 1 (·.version + 1)
    else key.dataMeta.version
  flag := value.dataMeta.flag
  edate :=
    if versionCare = false ∧ key.dataMeta.cdate ≠ 0 then key.dataMeta.edate
    else if expireTime = 0 then 0
    else if now < expireTime then expireTime else now + expireTime

namespace KdbItem

def note (item : KdbItem) : Note :=
  ⟨item.value, item.info.version, item.info.flag, item.info.edate⟩

theorem ofNat_leBytes (number : UInt32) :
    UInt32.ofNat (leValue (leBytes 4 number.toNat)) = number := by
  rw [leValue_leBytes_of_lt number.toNat_lt, UInt32.ofNat_toNat]

theorem note_decode_encode (item : KdbItem) : (decode item.encode).note = item.note := by
  obtain ⟨⟨flag, reserved, version, cdate, mdate, edate⟩, value⟩ := item
  have byte : UInt8.ofNat (leValue [flag]) = flag := by simp [leValue]
  have short : UInt16.ofNat (leValue (leBytes 2 version.toNat)) = version := by
    rw [leValue_leBytes_of_lt version.toNat_lt, UInt16.ofNat_toNat]
  change Note.mk value (UInt16.ofNat (leValue (leBytes 2 version.toNat)))
    (UInt8.ofNat (leValue [flag])) (UInt32.ofNat (leValue (leBytes 4 edate.toNat))) = _
  rw [byte, short, ofNat_leBytes]
  rfl

end KdbItem

namespace KdbBucket

/-- `int dc = db.set(...)`, which fails with false. -/
def codeOf (done : Bool) : ReturnCode := if (done.toNat : Int) < 0 then .failed else .success

variable (bucket : KdbBucket)

def putWith (now : UInt32) (key value : DataEntry) (versionCare : Bool)
    (expireTime : UInt32) (done : Bool) : KdbBucket × ReturnCode :=
  match bucket.put now key value versionCare expireTime with
  | (next, .success) => (if done then next else bucket, codeOf done)
  | refused => refused

def removeWith (key : DataEntry) (versionCare done : Bool) : KdbBucket × ReturnCode :=
  match bucket.remove key versionCare with
  | (next, .success) => (if done then next else bucket, codeOf done)
  | refused => refused

/-- The call that may fail is the removal of an item that has expired. -/
def getWith (now : UInt32) (key value : DataEntry) (done : Bool) :
    KdbBucket × ReturnCode × DataEntry × DataEntry :=
  match bucket.get now key value with
  | (_, .dataExpired, answer) => ((bucket.removeWith key false done).1, .dataExpired, answer)
  | answer => answer

def note (key : Bytes) : Option Note :=
  (bucket.lookup key).map fun full => (KdbItem.decode full).note

theorem dates_edate (now : UInt32) (info : ItemMeta) (versionCare : Bool) (expireTime : UInt32) :
    (putDates now info versionCare expireTime).edate =
      if versionCare = false ∧ info.cdate ≠ 0 then info.edate
      else if expireTime = 0 then 0
      else if now < expireTime then expireTime else now + expireTime := by
  have given : 0 < expireTime ↔ ¬expireTime = 0 := UInt32.pos_iff_ne_zero
  unfold putDates
  by_cases own : info.cdate = 0 ∨ versionCare = true
  · have fresh : ¬(versionCare = false ∧ info.cdate ≠ 0) := by
      rcases own with own | own <;> simp [own]
    rw [if_pos own, if_neg fresh]
    simp only [given, ite_not]
  · have kept : versionCare = false ∧ info.cdate ≠ 0 := by
      simpa [and_comm] using own
    rw [if_neg own, if_pos kept]

theorem putBase_version {now : UInt32} {key : DataEntry} {versionCare : Bool} {old : Option Bytes}
    {base : KdbItemMeta} (agreed : putBase now key versionCare old = some base) :
    base.version + 1 = ((old.map fun full => (KdbItem.decode full).note).filter
      fun note => !note.expired now).elim 1 (·.version + 1) := by
  cases old with
  | none =>
    cases agreed
    rfl
  | some full =>
    have same : (KdbItem.decode full).note.expired now = (KdbItem.decode full).isExpired now := rfl
    unfold putBase at agreed
    dsimp only at agreed
    rw [Option.map_some, Option.filter_some, same]
    by_cases expired : (KdbItem.decode full).isExpired now
    · rw [if_pos expired] at agreed
      cases agreed
      rw [expired]
      rfl
    · rw [if_neg expired] at agreed
      rw [Bool.not_eq_true _ |>.mp expired]
      split_ifs at agreed
      cases agreed
      rfl

variable (bucket : KdbBucket) (key : DataEntry)

/-- The record of a put is what its arguments ask for. -/
theorem put_cases (now : UInt32) (value : DataEntry) (versionCare : Bool) (expireTime : UInt32) :
    bucket.put now key value versionCare expireTime = (bucket, .versionError) ∨
      ∃ item : KdbItem,
        item.note = .ofPut (bucket.note key.data) now key value versionCare expireTime ∧
          bucket.put now key value versionCare expireTime =
            (bucket.insert key.data item.encode, .success) := by
  unfold put
  dsimp only
  cases agreed : putBase now key versionCare (bucket.lookup key.data) with
  | none => exact .inl rfl
  | some base =>
    refine .inr ⟨_, ?_, rfl⟩
    unfold Note.ofPut note
    rw [← putBase_version agreed, ← dates_edate]
    rfl

theorem note_insert (item : KdbItem) :
    note (bucket.insert key.data item.encode) = update bucket.note key.data (some item.note) := by
  funext other
  unfold note
  by_cases same : other = key.data
  · rw [same, AList.lookup_insert, update_self, Option.map_some, KdbItem.note_decode_encode]
  · rw [AList.lookup_insert_ne same, update_of_ne same]

theorem note_erase : note (bucket.erase key.data) = update bucket.note key.data none := by
  funext other
  unfold note
  by_cases same : other = key.data
  · rw [same, AList.lookup_erase, update_self, Option.map_none]
  · rw [AList.lookup_erase_ne same, update_of_ne same]

end KdbBucket

/-! ### Runs -/

/-- The calls, each with what the database returns. -/
inductive BucketEvent
  | put (now : UInt32) (key value : DataEntry) (versionCare : Bool) (expireTime : UInt32)
      (done : Bool)
  | get (now : UInt32) (key value : DataEntry) (done : Bool)
  | remove (key : DataEntry) (versionCare done : Bool)

def BucketEvent.done : BucketEvent → Bool
  | .put _ _ _ _ _ done | .get _ _ _ done | .remove _ _ done => done

/-- A bucket beside the last successful puts that were not removed or found expired since. -/
structure Noted where
  bucket : KdbBucket
  notes : Bytes → Option Note

namespace Noted

def start : Noted := ⟨∅, fun _ => none⟩

def step (state : Noted) : BucketEvent → Except Fault Noted
  | .put now key value versionCare expireTime done =>
    let (next, code) := state.bucket.putWith now key value versionCare expireTime done
    let note := Note.ofPut (state.notes key.data) now key value versionCare expireTime
    .ok ⟨next, if code = .success then update state.notes key.data (some note) else state.notes⟩
  | .get now key value done =>
    let (next, code, _) := state.bucket.getWith now key value done
    .ok ⟨next, if code = .dataExpired then update state.notes key.data none else state.notes⟩
  | .remove key versionCare done =>
    let (next, code) := state.bucket.removeWith key versionCare done
    .ok ⟨next, if code = .success then update state.notes key.data none else state.notes⟩

/-- What the answer to a get should be. -/
def Answers (answer : KdbBucket × ReturnCode × DataEntry × DataEntry) (now : UInt32) :
    Option Note → Prop
  | none => answer.2.1 = .dataNotExist
  | some note =>
    if note.expired now then answer.2.1 = .dataExpired
    else answer.2.1 = .success ∧ answer.2.2.2.data = note.value ∧
      answer.2.2.2.dataMeta.version = note.version ∧ answer.2.2.2.dataMeta.flag = note.flag

def Real (state : Noted) : Prop :=
  ∀ now key value done,
    Answers (state.bucket.getWith now key value done) now (state.notes key.data)

theorem real_of_note {state : Noted} (noted : state.bucket.note = state.notes) : state.Real := by
  intro now key value done
  rw [← noted]
  unfold KdbBucket.getWith KdbBucket.get KdbBucket.note
  cases state.bucket.lookup key.data with
  | none => rfl
  | some old =>
    have same : (KdbItem.decode old).note.expired now = (KdbItem.decode old).isExpired now := rfl
    dsimp only [Option.map_some, Answers]
    rw [same]
    by_cases expired : (KdbItem.decode old).isExpired now
    · rw [if_pos expired, if_pos expired]
    · rw [if_neg expired, if_neg expired]
      exact ⟨rfl, rfl, rfl, rfl⟩

theorem note_step {state next : Noted} {event : BucketEvent}
    (noted : state.bucket.note = state.notes) (done : event.done = true)
    (ran : state.step event = .ok next) : next.bucket.note = next.notes := by
  cases event with
  | put now key value versionCare expireTime sets =>
    cases done
    cases ran
    rcases state.bucket.put_cases key now value versionCare expireTime with
      ne | ⟨item, asked, stored⟩
    · rw [ne]
      exact noted
    · rw [stored]
      refine (KdbBucket.note_insert _ _ _).trans ?_
      rw [asked, noted]
      rfl
  | get now key value removes =>
    cases done
    cases ran
    unfold KdbBucket.get
    cases found : state.bucket.lookup key.data with
    | none => exact noted
    | some old =>
      by_cases expired : (KdbItem.decode old).isExpired now
      · simp only [if_pos expired]
        unfold KdbBucket.removeWith KdbBucket.remove
        rw [found]
        dsimp only
        rw [if_neg fun cared => Bool.false_ne_true cared.1]
        exact (KdbBucket.note_erase _ _).trans (noted ▸ rfl)
      · simp only [if_neg expired]
        exact noted
  | remove key versionCare removes =>
    cases done
    cases ran
    dsimp only
    rcases state.bucket.remove_cases key versionCare with gone | ⟨ne, -⟩ | removed
    · rw [gone]
      exact noted
    · rw [ne]
      exact noted
    · rw [removed]
      exact (KdbBucket.note_erase _ _).trans (noted ▸ rfl)

/-- As long as the database does what it is asked for, success is real. -/
theorem success_is_real {state : Noted}
    (reached : Reached step (fun _ event => event.done = true) start state) : state.Real :=
  real_of_note (reached.invariant (fun state => state.bucket.note = state.notes) rfl note_step)

def sampleKey : DataEntry := ⟨[0, 0, 7], 0, true, false, 0, default⟩

def sampleValue : DataEntry := ⟨[9], 0, false, false, 0, default⟩

theorem success_is_real_twice :
    ∃ state, Reached step (fun _ event => event.done = true) start state ∧ state.Real ∧
      state.notes sampleKey.data = some ⟨[9], 2, 0, 10⟩ := by
  have reached : Reached step (fun _ event => event.done = true) start _ :=
    .step (.step .start (.put 5 sampleKey sampleValue true 0 true) rfl rfl)
      (.put 5 sampleKey sampleValue true 10 true) rfl rfl
  exact ⟨_, reached, success_is_real reached, rfl⟩

/-- The database fails, the put succeeds, and there is nothing to get. -/
theorem failed_put_succeeds :
    (start.bucket.putWith 5 sampleKey sampleValue true 0 false).2 = .success ∧
      ∃ state, Reached step (fun _ _ => True) start state ∧
        state.notes sampleKey.data = some ⟨[9], 1, 0, 0⟩ ∧
        (state.bucket.getWith 5 sampleKey sampleValue true).2.1 = .dataNotExist ∧ ¬state.Real := by
  refine ⟨rfl, _, .step .start (.put 5 sampleKey sampleValue true 0 false) trivial rfl, rfl, rfl,
    fun real => ?_⟩
  cases (real 5 sampleKey sampleValue true).1

end Noted

end Tair.Kdb
