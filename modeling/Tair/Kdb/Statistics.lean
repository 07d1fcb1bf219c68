/-
The numbers that a bucket keeps for every area. A put adds the bytes by which its record differs
from the one before, and counts an item whether or not there was one.
-/

import Tair.Common.Fault
import Tair.Kdb.Bucket
import Tair.Library.CountedTable
import Tair.Library.Machine

namespace Tair.Kdb

open Function Tair.Common Tair.Library

/-- `tair_pstat`, without `use_size`, which gets the same numbers as `data_size`. -/
structure PStat where
  dataSize : UInt64
  itemCount : UInt64

/-- The area that `merge_area` writes in front of a key. -/
def areaOf (stored : Bytes) : Nat := leValue (stored.take 2)

/-- A bucket with its statistics, and the number of puts that met a record of their key. -/
structure Counted where
  bucket : KdbBucket
  stat : Nat → PStat
  overwrites : Nat → Nat

/-- The calls of `put` and `remove`. -/
inductive StatEvent
  | put (now : UInt32) (key value : DataEntry) (versionCare : Bool) (expireTime : UInt32)
  | remove (key : DataEntry) (versionCare : Bool)

namespace Counted

def start : Counted := ⟨∅, fun _ => ⟨0, 0⟩, fun _ => 0⟩

/-- The bytes of a key and its record, if there is one. -/
def sizeOf (key : DataEntry) (stored : Option Bytes) : UInt64 :=
  UInt64.ofNat (stored.elim 0 fun full => key.data.length + full.length)

variable (state : Counted)

/-- `stat_data_size` is an `int` that `stat_add` widens. -/
def statAdd (next : KdbBucket) (key : DataEntry) : Except Fault Counted :=
  if key.area < tairMaxAreaCount then
    let old := state.bucket.lookup key.data
    .ok
      { bucket := next
        stat := update state.stat key.area
          { dataSize := (state.stat key.area).dataSize +
              (0 - sizeOf key old + sizeOf key (next.lookup key.data))
            itemCount := (state.stat key.area).itemCount + 1 }
        overwrites := update state.overwrites key.area
          (state.overwrites key.area + old.elim 0 fun _ => 1) }
  else .error .assertFailed

def statSub (next : KdbBucket) (key : DataEntry) : Except Fault Counted :=
  if key.area < tairMaxAreaCount then
    .ok
      { state with
        bucket := next
        stat := update state.stat key.area
          { dataSize := (state.stat key.area).dataSize - sizeOf key (state.bucket.lookup key.data)
            itemCount := (state.stat key.area).itemCount - 1 } }
  else .error .assertFailed

def step : StatEvent → Except Fault Counted
  | .put now key value versionCare expireTime =>
    match state.bucket.put now key value versionCare expireTime with
    | (next, .success) => state.statAdd next key
    | _ => .ok state
  | .remove key versionCare =>
    match state.bucket.remove key versionCare with
    | (next, .success) => state.statSub next key
    | _ => .ok state

/-- Keys come with their area merged. -/
def Merged (_ : Counted) : StatEvent → Prop
  | .put _ key _ _ _ | .remove key _ => areaOf key.data = key.area

/-- The sum of a weight over the records of an area. -/
def total (weigh : Bytes → Bytes → Nat) (bucket : KdbBucket) (area : Nat) : Nat :=
  (bucket.entries.map fun entry => if areaOf entry.1 = area then weigh entry.1 entry.2 else 0).sum

def items : KdbBucket → Nat → Nat := total fun _ _ => 1

def bytes : KdbBucket → Nat → Nat := total fun key full => key.length + full.length

/-- The statistics of an area are right. -/
def Exact (area : Nat) : Prop :=
  (state.stat area).itemCount = UInt64.ofNat (items state.bucket area) ∧
    (state.stat area).dataSize = UInt64.ofNat (bytes state.bucket area)

section Totals

variable (weigh : Bytes → Bytes → Nat) (bucket : KdbBucket) (key : Bytes) (area : Nat)

theorem total_insert (full : Bytes) : total weigh (bucket.insert key full) area =
    (if areaOf key = area then weigh key full else 0) + total weigh (bucket.erase key) area :=
  List.sum_cons

theorem total_erase : total weigh bucket area =
    (if areaOf key = area then (bucket.lookup key).elim 0 (weigh key) else 0) +
      total weigh (bucket.erase key) area := by
  cases found : bucket.lookup key with
  | none =>
    have same : bucket.erase key = bucket :=
      AList.ext (List.kerase_of_notMem_keys (AList.lookup_eq_none.mp found))
    rw [same, Option.elim_none, ite_self, Nat.zero_add]
  | some full =>
    obtain ⟨before, after, split, erased⟩ := exists_erase found
    unfold total
    rw [erased, split]
    simp only [List.map_append, List.map_cons, List.sum_append, List.sum_cons, Option.elim_some]
    omega

end Totals

/-- The bytes are right; the items are too many by the puts that overwrote. -/
structure Tracks (state : Counted) (area : Nat) : Prop where
  itemCount : (state.stat area).itemCount =
    UInt64.ofNat (items state.bucket area + state.overwrites area)
  dataSize : (state.stat area).dataSize = UInt64.ofNat (bytes state.bucket area)

section

variable {state next : Counted} {key : DataEntry} (merged : areaOf key.data = key.area)
  {area : Nat} (tracks : state.Tracks area)

include merged tracks

theorem tracks_statAdd {full : Bytes}
    (added : state.statAdd (state.bucket.insert key.data full) key = .ok next) :
    next.Tracks area := by
  obtain ⟨count, size⟩ := tracks
  unfold items at count
  unfold bytes at size
  rw [total_erase _ _ key.data, merged] at count size
  unfold statAdd at added
  split_ifs at added
  cases added
  by_cases same : key.area = area
  · subst area
    rw [if_pos rfl] at count size
    refine ⟨?_, ?_⟩
    · unfold items
      dsimp only
      rw [update_self, update_self, count, total_insert, if_pos merged, ← UInt64.ofNat_one,
        ← UInt64.ofNat_add]
      exact congrArg UInt64.ofNat (by omega)
    · unfold bytes sizeOf
      dsimp only
      rw [update_self, size, total_insert, if_pos merged, AList.lookup_insert, Option.elim_some,
        UInt64.ofNat_add, UInt64.ofNat_add (_ + _), zero_sub, ← add_assoc,
        add_neg_cancel_comm, add_comm]
  · rw [if_neg same, Nat.zero_add] at count size
    have other : areaOf key.data ≠ area := merged ▸ same
    refine ⟨?_, ?_⟩
    · unfold items
      dsimp only
      rw [update_of_ne (Ne.symm same), update_of_ne (Ne.symm same), count, total_insert,
        if_neg other, Nat.zero_add]
    · unfold bytes
      dsimp only
      rw [update_of_ne (Ne.symm same), size, total_insert, if_neg other, Nat.zero_add]

theorem tracks_statSub {full : Bytes} (found : state.bucket.lookup key.data = some full)
    (taken : state.statSub (state.bucket.erase key.data) key = .ok next) : next.Tracks area := by
  obtain ⟨count, size⟩ := tracks
  unfold items at count
  unfold bytes at size
  rw [total_erase _ _ key.data, merged, found, Option.elim_some] at count size
  unfold statSub at taken
  split_ifs at taken
  cases taken
  by_cases same : key.area = area
  · subst area
    rw [if_pos rfl] at count size
    refine ⟨?_, ?_⟩
    · unfold items
      dsimp only
      rw [update_self, count, Nat.add_assoc, UInt64.ofNat_add]
      exact add_sub_cancel_left _ _
    · unfold bytes sizeOf
      dsimp only
      rw [update_self, size, found, UInt64.ofNat_add]
      exact add_sub_cancel_left _ _
  · rw [if_neg same, Nat.zero_add] at count size
    refine ⟨?_, ?_⟩
    · exact (congrArg PStat.itemCount (update_of_ne (Ne.symm same) _ _)).trans count
    · exact (congrArg PStat.dataSize (update_of_ne (Ne.symm same) _ _)).trans size

end

theorem tracks_step {state next : Counted} {event : StatEvent}
    (tracks : ∀ area, state.Tracks area) (merged : Merged state event)
    (ran : state.step event = .ok next) : ∀ area, next.Tracks area := by
  intro area
  cases event with
  | put now key value versionCare expireTime =>
    unfold step KdbBucket.put at ran
    dsimp only at ran
    cases based : KdbBucket.putBase now key versionCare (state.bucket.lookup key.data) with
    | none =>
      rw [based] at ran
      cases ran
      exact tracks area
    | some base =>
      rw [based] at ran
      exact tracks_statAdd merged (tracks area) ran
  | remove key versionCare =>
    unfold step KdbBucket.remove at ran
    dsimp only at ran
    cases found : state.bucket.lookup key.data with
    | none =>
      rw [found] at ran
      cases ran
      exact tracks area
    | some full =>
      rw [found] at ran
      dsimp only at ran
      split_ifs at ran with ne
      · cases ran
        exact tracks area
      · exact tracks_statSub merged (tracks area) found ran

/-- The bytes are always right, and the items as long as no put meets a record of its key. -/
theorem exact_iff_no_overwrites {state : Counted} (reached : Reached step Merged start state)
    (area : Nat) : state.Exact area ↔ state.overwrites area % 2 ^ 64 = 0 := by
  obtain ⟨count, size⟩ := reached.invariant (fun state => ∀ area, state.Tracks area)
    (fun _ => ⟨rfl, rfl⟩) tracks_step area
  unfold Exact
  rw [count, size, UInt64.ofNat_add, add_eq_left, ← UInt64.toNat_inj, UInt64.toNat_ofNat']
  exact and_iff_left rfl

def sampleKey : DataEntry := ⟨[1, 0, 7], 1, true, false, 0, default⟩

def sampleValue : DataEntry := ⟨[9], 1, false, false, 0, default⟩

def samplePut : StatEvent := .put 5 sampleKey sampleValue true 0

theorem exact_after_one_put :
    ∃ state, Reached step Merged start state ∧ state.Exact 1 ∧ items state.bucket 1 = 1 ∧
      bytes state.bucket 1 = 20 := by
  have reached : Reached step Merged start _ := .step .start samplePut rfl rfl
  exact ⟨_, reached, (exact_iff_no_overwrites reached 1).mpr rfl, rfl, rfl⟩

/-- One item, put twice, is counted twice. -/
theorem overwriting_counts_twice :
    ∃ state, Reached step Merged start state ∧ items state.bucket 1 = 1 ∧
      (state.stat 1).itemCount = 2 ∧ ¬state.Exact 1 := by
  refine ⟨_, .step (.step .start samplePut rfl rfl) samplePut rfl rfl, rfl, rfl, fun right => ?_⟩
  exact absurd right.1 (by decide)

end Counted

end Tair.Kdb
