/-
An area as its commands see it: under each key the entry of the dictionary with its time to
expire, unless the key is dead. A command looks at the slot of its own key, changes that slot,
and leaves the other ones.
-/

import Tair.Rdb.Commands

namespace Tair.Rdb

open Tair.Library

variable {σ : Type}

structure Slot (σ : Type) where
  entry : Entry σ
  expire : Option Int

/-- The area was cleared after the key was added, or the time of the key is over. -/
def Slot.dead (clock : UInt32) (now : Int) (slot : Slot σ) : Bool :=
  slot.entry.logiclock < clock ∨ slot.expire.any (fun expire => 0 ≤ expire ∧ expire < now)

theorem Slot.dead_eq (clock : UInt32) (now : Int) (slot : Slot σ) :
    slot.dead clock now = decide (slot.entry.logiclock < clock ∨
      ¬ (slot.expire.getD (-1) < 0 ∨ now ≤ slot.expire.getD (-1))) := by
  unfold Slot.dead
  cases slot.expire with
  | none => simp
  | some expire => simp

def ExpireChange.apply (expire : Option Int) : ExpireChange → Option Int
  | .keep => expire
  | .remove => none
  | .set when => some when

def Change.apply (clock : UInt32) (slot : Option (Slot σ)) : Change σ → Option (Slot σ)
  | .keep => slot
  | .delete => none
  | .store value version timing =>
    some
      { entry :=
          { value, version, logiclock := slot.elim clock (fun slot => slot.entry.logiclock) }
        expire := timing.apply (slot.bind Slot.expire) }
  | .expire change => slot.map fun slot => { slot with expire := change.apply slot.expire }

namespace RedisDb

def slot (db : RedisDb σ) (key : Bytes) : Option (Slot σ) :=
  (db.dict.lookup key).map fun entry => { entry, expire := db.expires.lookup key }

def live (db : RedisDb σ) (now : Int) (key : Bytes) : Option (Slot σ) :=
  (db.slot key).filter fun slot => !slot.dead db.logiclock now

def Tidy (db : RedisDb σ) : Prop :=
  ∀ key, db.dict.lookup key = none → db.expires.lookup key = none

/-! ### Changes of a slot -/

variable {db : RedisDb σ} {key : Bytes}

theorem entry_of_slot : (db.slot key).map Slot.entry = db.dict.lookup key := by
  unfold slot
  cases db.dict.lookup key <;> rfl

theorem expire_of_slot (tidy : db.Tidy) :
    (db.slot key).bind Slot.expire = db.expires.lookup key := by
  unfold slot
  cases found : db.dict.lookup key with
  | none => exact (tidy key found).symm
  | some entry => rfl

structure Changed (db after : RedisDb σ) (key : Bytes) (slot : Option (Slot σ)) : Prop where
  here : after.slot key = slot
  elsewhere : ∀ other, other ≠ key → after.slot other = db.slot other
  clock : after.logiclock = db.logiclock
  tidy : after.Tidy

theorem Changed.trans {after last : RedisDb σ} {slot final : Option (Slot σ)}
    (first : db.Changed after key slot) (second : after.Changed last key final) :
    db.Changed last key final where
  here := second.here
  elsewhere other ne :=
    (second.elsewhere other ne).trans (first.elsewhere other ne)
  clock := second.clock.trans first.clock
  tidy := second.tidy

section

variable (tidy : db.Tidy)

include tidy

theorem changed_dbDelete (key : Bytes) : db.Changed (db.dbDelete key) key none where
  here := by
    change ((db.dict.erase key).lookup key).map _ = none
    rw [AList.lookup_erase]
    rfl
  elsewhere other ne := by
    change ((db.dict.erase key).lookup other).map
      (fun entry => Slot.mk entry ((db.expires.erase key).lookup other)) = _
    rw [AList.lookup_erase_ne ne, AList.lookup_erase_ne ne]
    rfl
  clock := rfl
  tidy := by
    intro other gone
    change (db.expires.erase key).lookup other = none
    by_cases same : other = key
    · subst same
      exact AList.lookup_erase ..
    · rw [AList.lookup_erase_ne same]
      refine tidy other ?_
      change (db.dict.erase key).lookup other = none at gone
      rwa [AList.lookup_erase_ne same] at gone

theorem changed_insert (key : Bytes) (entry : Entry σ) :
    db.Changed { db with dict := db.dict.insert key entry } key
      (some { entry, expire := (db.slot key).bind Slot.expire }) where
  here := by
    change ((db.dict.insert key entry).lookup key).map _ = _
    rw [AList.lookup_insert, expire_of_slot tidy]
    rfl
  elsewhere other ne := by
    change ((db.dict.insert key entry).lookup other).map _ = _
    rw [AList.lookup_insert_ne ne]
    rfl
  clock := rfl
  tidy := by
    intro other gone
    by_cases same : other = key
    · subst same
      change (db.dict.insert other entry).lookup other = none at gone
      rw [AList.lookup_insert] at gone
      cases gone
    · refine tidy other ?_
      change (db.dict.insert key entry).lookup other = none at gone
      rwa [AList.lookup_insert_ne same] at gone

theorem changed_expires {expires : AList (fun _ : Bytes => Int)} {expire : Option Int}
    (present : (db.dict.lookup key).isSome) (here : expires.lookup key = expire)
    (elsewhere : ∀ other, other ≠ key → expires.lookup other = db.expires.lookup other) :
    db.Changed { db with expires } key
      ((db.slot key).map fun slot => { slot with expire }) where
  here := by
    change (db.dict.lookup key).map (fun entry => Slot.mk entry (expires.lookup key)) = _
    rw [here]
    unfold slot
    rw [Option.map_map]
    rfl
  elsewhere other ne := by
    change (db.dict.lookup other).map (fun entry => Slot.mk entry (expires.lookup other)) = _
    rw [elsewhere other ne]
    rfl
  clock := rfl
  tidy := by
    intro other gone
    by_cases same : other = key
    · subst same
      rw [show db.dict.lookup other = none from gone] at present
      cases present
    · exact (elsewhere other same).trans (tidy other gone)

theorem changed_refl (key : Bytes) : db.Changed db key (db.slot key) :=
  ⟨rfl, fun _ _ => rfl, rfl, tidy⟩

theorem changed_changeExpire (key : Bytes) (change : ExpireChange) :
    db.Changed (db.changeExpire key change) key
      ((db.slot key).map fun slot => { slot with expire := change.apply slot.expire }) := by
  cases found : db.dict.lookup key with
  | none =>
    have absent : db.slot key = none := by
      unfold slot
      rw [found]
      rfl
    have same : db.changeExpire key change = db := by
      cases change <;> simp [changeExpire, removeXExpire, setXExpire, found]
    rw [same, absent, Option.map_none, ← absent]
    exact changed_refl tidy key
  | some entry =>
    have present : (db.dict.lookup key).isSome := by rw [found]; rfl
    have here : db.slot key = some { entry, expire := db.expires.lookup key } := by
      unfold slot
      rw [found]
      rfl
    cases change with
    | keep =>
      have same : (db.slot key).map (fun slot =>
          { slot with expire := ExpireChange.keep.apply slot.expire }) = db.slot key := by
        rw [here]
        rfl
      rw [same]
      exact changed_refl tidy key
    | remove =>
      have ran : db.changeExpire key .remove = { db with expires := db.expires.erase key } :=
        if_pos present
      rw [ran]
      refine changed_expires tidy present (AList.lookup_erase ..) ?_
      exact fun other ne => AList.lookup_erase_ne ne
    | set when =>
      have ran : db.changeExpire key (.set when) =
          { db with expires := db.expires.insert key when } := if_pos present
      rw [ran]
      refine changed_expires tidy present (AList.lookup_insert _) ?_
      exact fun other ne => AList.lookup_insert_ne ne

theorem changed_store_entry {entry : Entry σ} (value : Robj σ)
    (version : UInt16) (found : db.dict.lookup key = some entry) :
    db.Changed ((db.mutate key value).dbUpdateKey key version) key
      (some
        { entry := { entry with value, version }
          expire := (db.slot key).bind Slot.expire }) := by
  have mutated : db.mutate key value =
      { db with dict := db.dict.insert key { entry with value } } := by
    unfold mutate
    rw [found]
  have first := changed_insert tidy key { entry with value }
  rw [← mutated] at first
  have there : (db.mutate key value).dict.lookup key = some { entry with value } := by
    rw [mutated]
    exact AList.lookup_insert _
  have updated : (db.mutate key value).dbUpdateKey key version =
      { db.mutate key value with
        dict := (db.mutate key value).dict.insert key { entry with value, version } } := by
    unfold dbUpdateKey
    rw [there]
  rw [updated]
  have second := changed_insert first.tidy key { entry with value, version }
  rw [first.here] at second
  exact first.trans second

theorem changed_change (key : Bytes) (change : Change σ) :
    db.Changed (db.change key change) key (change.apply db.logiclock (db.slot key)) := by
  cases change with
  | keep => exact changed_refl tidy key
  | delete => exact changed_dbDelete tidy key
  | expire change => exact changed_changeExpire tidy key change
  | store value version timing =>
    -- The key is there after `dbAdd`, with its own clock or the one of the area.
    let clock := (db.slot key).elim db.logiclock (fun slot => slot.entry.logiclock)
    have stored : db.Changed
        (((db.dbAdd key version value).mutate key value).dbUpdateKey key version) key
          (some
            { entry := { value, version, logiclock := clock }
              expire := (db.slot key).bind Slot.expire }) := by
      cases found : db.dict.lookup key with
      | some entry =>
        have added : db.dbAdd key version value = db := if_pos (by rw [found]; rfl)
        have own : clock = entry.logiclock := by
          change ((db.dict.lookup key).map _).elim _ _ = _
          rw [found]
          rfl
        rw [added, own]
        exact changed_store_entry tidy value version found
      | none =>
        have absent : db.slot key = none := by
          unfold slot
          rw [found]
          rfl
        let new : Entry σ := { value, version, logiclock := db.logiclock }
        have added : db.dbAdd key version value =
            { db with dict := db.dict.insert key new } :=
          if_neg (by rw [found]; exact Bool.false_ne_true)
        have first := changed_insert tidy key new
        rw [← added] at first
        have there : (db.dbAdd key version value).dict.lookup key = some new := by
          rw [added]
          exact AList.lookup_insert _
        have second := changed_store_entry first.tidy value version there
        rw [first.here] at second
        have own : clock = db.logiclock := by
          change (db.slot key).elim _ _ = _
          rw [absent]
          rfl
        rw [own]
        exact first.trans second
    have timed := changed_changeExpire stored.tidy key timing
    rw [stored.here] at timed
    exact stored.trans timed

/-! ### A run of a command -/

theorem changed_expireIfNeeded {now : Int} {after : RedisDb σ}
    (ran : db.expireIfNeeded now key = .ok after) : db.Changed after key (db.live now key) := by
  unfold expireIfNeeded at ran
  cases found : db.dict.lookup key with
  | none =>
    rw [found] at ran
    cases ran
    have absent : db.live now key = db.slot key := by
      unfold live slot
      rw [found]
      rfl
    rw [absent]
    exact changed_refl tidy key
  | some entry =>
    rw [found] at ran
    dsimp only at ran
    have here : db.slot key = some { entry, expire := db.expires.lookup key } := by
      unfold slot
      rw [found]
      rfl
    have deleted := changed_dbDelete tidy key
    have filtered : db.live now key = if entry.logiclock < db.logiclock ∨
        ¬ ((db.expires.lookup key).getD (-1) < 0 ∨ now ≤ (db.expires.lookup key).getD (-1))
        then none else db.slot key := by
      unfold live
      rw [here, Option.filter_some, Slot.dead_eq]
      have turned : ∀ (dead : Prop) [Decidable dead] (slot : Option (Slot σ)),
          (if (!decide dead) = true then slot else none) = if dead then none else slot := by
        intro dead _ slot
        by_cases holds : dead
        · rw [decide_eq_true holds, if_pos holds]
          rfl
        · rw [decide_eq_false holds, if_neg holds]
          rfl
      exact turned _ _
    split_ifs at ran with unset older timed
    · cases ran
      rw [filtered, if_pos (.inl older)]
      exact { deleted with }
    · cases ran
      rw [filtered, if_neg (not_or.mpr ⟨older, not_not.mpr timed⟩)]
      exact changed_refl tidy key
    · cases ran
      rw [filtered, if_pos (.inr timed)]
      exact deleted

end

/-- Every key has a clock. -/
def Clocked (db : RedisDb σ) (key : Bytes) : Prop :=
  ∀ entry, db.dict.lookup key = some entry → entry.logiclock ≠ 0

theorem expireIfNeeded_runs (now : Int) (clocked : db.Clocked key) :
    ∃ after, db.expireIfNeeded now key = .ok after := by
  unfold expireIfNeeded
  cases found : db.dict.lookup key with
  | none => exact ⟨_, rfl⟩
  | some entry =>
    dsimp only
    rw [if_neg (clocked entry found)]
    split_ifs
    · exact ⟨_, rfl⟩
    · exact ⟨_, rfl⟩
    · exact ⟨_, rfl⟩

theorem changed_run {now : Int} {action : Action σ} {after : RedisDb σ} {out : Outcome σ}
    (tidy : db.Tidy) (ran : db.run now key action = .ok (after, out)) :
    action ((db.live now key).map Slot.entry) = .ok out ∧
      db.Changed after key (out.change.apply db.logiclock (db.live now key)) := by
  obtain ⟨⟨looked, found⟩, lookedUp, ran⟩ := ok_of_bind ran
  obtain ⟨expired, expiredOk, same⟩ := ok_of_bind lookedUp
  cases same
  obtain ⟨made, acted, same⟩ := ok_of_bind ran
  cases same
  have first := changed_expireIfNeeded tidy expiredOk
  have second := changed_change first.tidy key out.change
  rw [first.here, first.clock] at second
  refine ⟨?_, first.trans second⟩
  rw [← first.here, entry_of_slot]
  exact acted

theorem run_of_action {now : Int} {action : Action σ} {out : Outcome σ} (tidy : db.Tidy)
    (clocked : db.Clocked key) (acted : action ((db.live now key).map Slot.entry) = .ok out) :
    ∃ after, db.run now key action = .ok (after, out) := by
  obtain ⟨expired, ran⟩ := expireIfNeeded_runs now clocked
  have first := changed_expireIfNeeded tidy ran
  rw [← first.here, entry_of_slot] at acted
  refine ⟨expired.change key out.change, ?_⟩
  unfold run lookupKeyWriteWithVersion
  rw [ran]
  change (action (expired.dict.lookup key) >>= _) = _
  rw [acted]
  rfl

end RedisDb

/-! ### What clients see -/

inductive Content (σ : Type) where
  | string (bytes : Bytes)
  | list (items : List Bytes)
  | set (members : Finset Bytes)
  | zset (members : List (Bytes × σ))
  | hash (fields : Finset (Bytes × Bytes))

def RedisSet.members (set : RedisSet) : Finset Bytes :=
  (set.objects.map StringObject.decoded).toFinset

def Robj.content : Robj σ → Content σ
  | .string value => .string value.decoded
  | .list value => .list value.items
  | .set value => .set value.members
  | .zset nodes => .zset (nodes.map fun node => (node.1.decoded, node.2))
  | .hash value => .hash value.entries.toFinset

structure Visible (σ : Type) where
  content : Content σ
  version : UInt16
  expire : Option Int

def Slot.visible (slot : Slot σ) : Visible σ :=
  { content := slot.entry.value.content
    version := slot.entry.version
    expire := slot.expire }

def RedisDb.visible (db : RedisDb σ) (now : Int) (key : Bytes) : Option (Visible σ) :=
  (db.live now key).map Slot.visible

end Tair.Rdb
