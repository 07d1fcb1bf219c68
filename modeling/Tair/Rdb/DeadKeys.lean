/-
Dead keys. A key whose time is over, or that is older than the last clearing of its area, stays in
the dictionaries until a command looks it up. Such commands cannot tell an area from the same one
without its dead keys; those that go to the dictionaries can.
-/

import Tair.Rdb.Slots

namespace Tair.Rdb

open Tair.Library

variable {σ : Type}

/-! ### What happens to an area -/

inductive Event (σ : Type) where
  | command (key : Bytes) (client : Client) (command : Command σ)
  | raw (key : Bytes) (command : RawCommand)
  /-- `lazyflushdb`. -/
  | clear
  /-- A key that the server removes by itself. -/
  | evict (key : Bytes)

structure Reply (σ : Type) where
  code : RedisCode
  answer : Answer σ
  version : UInt16
deriving DecidableEq, Repr

def Outcome.reply (outcome : Outcome σ) : Reply σ :=
  { code := outcome.code, answer := outcome.answer, version := outcome.version }

namespace RedisDb

section Steps

variable [LinearOrder σ] (server : Server σ)

def step (db : RedisDb σ) (now : Int) : Event σ → Except Fault (RedisDb σ × Option (Reply σ))
  | .command key client command => do
    let ran ← db.run now key (command.action server client)
    pure (ran.1, some ran.2.reply)
  | .raw key command => do
    let ran ← db.runRaw now key command
    pure (ran.1, some ran.2.reply)
  | .clear => .ok (db.lazyflushdb, none)
  | .evict key => .ok (db.dbDelete key, none)

def replies (db : RedisDb σ) : List (Int × Event σ) → Except Fault (List (Option (Reply σ)))
  | [] => .ok []
  | (now, event) :: later => do
    let next ← db.step server now event
    let rest ← next.1.replies later
    pure (next.2 :: rest)

/-- A command that goes to the dictionaries does not meet a dead key there, and the clock of the
area can be turned on. -/
def careful (db : RedisDb σ) (now : Int) : Event σ → Bool
  | .raw key _ => (db.slot key).all fun slot => !slot.dead db.logiclock now
  | .clear => db.logiclock + 1 ≠ 0
  | .command _ _ _ => true
  | .evict _ => true

def carefully (db : RedisDb σ) : List (Int × Event σ) → Bool
  | [] => true
  | (now, event) :: later =>
    db.careful now event && (db.step server now event).toOption.all fun next =>
      next.1.carefully later

end Steps

/-- What the commands keep: no time without a key, and no clock beyond the one of the area. -/
structure Sane (db : RedisDb σ) : Prop where
  tidy : db.Tidy
  started : db.logiclock ≠ 0
  clocked : ∀ key slot, db.slot key = some slot →
    slot.entry.logiclock ≠ 0 ∧ slot.entry.logiclock ≤ db.logiclock

theorem Sane.clocked_key {db : RedisDb σ} (sane : db.Sane) (key : Bytes) : db.Clocked key := by
  intro entry found
  have here : db.slot key = some { entry, expire := db.expires.lookup key } := by
    unfold slot
    rw [found]
    rfl
  exact (sane.clocked key _ here).1

end RedisDb

/-! ### Death -/

theorem lt_succ_of_ne_zero {clock : UInt32} (turns : clock + 1 ≠ 0) : clock < clock + 1 := by
  have small := clock.toNat_lt
  have apart : (clock + 1).toNat ≠ 0 := fun same => turns (UInt32.toNat_inj.mp same)
  rw [UInt32.lt_iff_toNat_lt]
  rw [UInt32.toNat_add, UInt32.toNat_one] at apart ⊢
  omega

theorem Slot.dead_mono {clock next : UInt32} {now later : Int} {slot : Slot σ}
    (clocks : clock ≤ next) (times : now ≤ later) (dead : slot.dead clock now = true) :
    slot.dead next later = true := by
  unfold Slot.dead at dead ⊢
  rw [decide_eq_true_eq] at dead ⊢
  rcases dead with clean | timed
  · exact .inl (UInt32.lt_of_lt_of_le clean clocks)
  · right
    cases expiry : slot.expire with
    | none =>
      rw [expiry] at timed
      cases timed
    | some expire =>
      rw [expiry] at timed
      have past := of_decide_eq_true timed
      exact decide_eq_true ⟨past.1, lt_of_lt_of_le past.2 times⟩

namespace RedisDb

/-! ### Areas that differ in dead keys -/

structure Alike (now : Int) (db other : RedisDb σ) : Prop where
  clock : other.logiclock = db.logiclock
  sane : db.Sane
  otherSane : other.Sane
  slots : ∀ key, other.slot key = db.slot key ∨ (other.slot key = none ∧
    ∃ slot, db.slot key = some slot ∧ slot.dead db.logiclock now = true)

section Alike

variable {now later : Int} {db other after otherAfter : RedisDb σ} {key : Bytes}

theorem Alike.wait (alike : Alike now db other) (times : now ≤ later) :
    Alike later db other where
  clock := alike.clock
  sane := alike.sane
  otherSane := alike.otherSane
  slots key := (alike.slots key).imp_right fun ⟨gone, slot, found, dead⟩ =>
    ⟨gone, slot, found, Slot.dead_mono (UInt32.le_refl _) times dead⟩

theorem Alike.live_eq (alike : Alike now db other) (key : Bytes) :
    other.live now key = db.live now key := by
  unfold live
  rcases alike.slots key with same | ⟨gone, slot, found, dead⟩
  · rw [same, alike.clock]
  · rw [gone, found, Option.filter_some, dead]
    rfl

/-- The clock of a slot lies between the first one and the one of the area. -/
def InTime (clock : UInt32) (slot : Option (Slot σ)) : Prop :=
  ∀ found, slot = some found → found.entry.logiclock ≠ 0 ∧ found.entry.logiclock ≤ clock

theorem inTime_apply {clock : UInt32} {slot : Option (Slot σ)} (started : clock ≠ 0)
    (inTime : InTime clock slot) (change : Change σ) : InTime clock (change.apply clock slot) := by
  intro found applied
  cases change with
  | keep => exact inTime found applied
  | delete => cases applied
  | store value version timing =>
    cases applied
    cases slot with
    | none => exact ⟨started, UInt32.le_refl _⟩
    | some old => exact inTime old rfl
  | expire change =>
    obtain ⟨old, stored, rfl⟩ := Option.map_eq_some_iff.mp applied
    exact inTime old stored

theorem inTime_live (sane : db.Sane) (now : Int) (key : Bytes) :
    InTime db.logiclock (db.live now key) := by
  intro found live
  exact sane.clocked key found (Option.filter_eq_some_iff.mp live).1

theorem Changed.sane {slot : Option (Slot σ)} (changed : db.Changed after key slot)
    (sane : db.Sane) (inTime : InTime db.logiclock slot) : after.Sane where
  tidy := changed.tidy
  started := by
    rw [changed.clock]
    exact sane.started
  clocked := by
    intro wanted found stored
    rw [changed.clock]
    by_cases own : wanted = key
    · subst own
      rw [changed.here] at stored
      exact inTime found stored
    · rw [changed.elsewhere wanted own] at stored
      exact sane.clocked wanted found stored

/-- The same slot under the key of a command keeps the two areas alike. -/
theorem Alike.changed {slot : Option (Slot σ)} (alike : Alike now db other)
    (inTime : InTime db.logiclock slot) (changed : db.Changed after key slot)
    (otherChanged : other.Changed otherAfter key slot) : Alike now after otherAfter where
  clock := by rw [otherChanged.clock, changed.clock, alike.clock]
  sane := changed.sane alike.sane inTime
  otherSane := otherChanged.sane alike.otherSane (by rw [alike.clock]; exact inTime)
  slots := by
    intro wanted
    by_cases own : wanted = key
    · subst own
      rw [changed.here, otherChanged.here]
      exact .inl rfl
    · rw [changed.elsewhere wanted own, otherChanged.elsewhere wanted own, changed.clock]
      exact alike.slots wanted

/-! ### One step -/

theorem run_of_fault {action : Action σ} {fault : Fault} (tidy : db.Tidy) (clocked : db.Clocked key)
    (faulted : action ((db.live now key).map Slot.entry) = .error fault) :
    db.run now key action = .error fault := by
  obtain ⟨expired, ran⟩ := expireIfNeeded_runs now clocked
  have first := changed_expireIfNeeded tidy ran
  rw [← first.here, entry_of_slot] at faulted
  unfold run lookupKeyWriteWithVersion
  rw [ran]
  change (action (expired.dict.lookup key) >>= _) = _
  rw [faulted]
  rfl

def Together (now : Int) (first second : Except Fault (RedisDb σ × Option (Reply σ))) : Prop :=
  (∃ fault, first = .error fault ∧ second = .error fault) ∨
    ∃ after otherAfter reply, first = .ok (after, reply) ∧ second = .ok (otherAfter, reply) ∧
      Alike now after otherAfter

variable [LinearOrder σ] {server : Server σ}

theorem Alike.command (alike : Alike now db other) (key : Bytes) (client : Client)
    (command : Command σ) :
    Together now (db.step server now (.command key client command))
      (other.step server now (.command key client command)) := by
  have clocked := alike.sane.clocked_key key
  have otherClocked := alike.otherSane.clocked_key key
  have same := alike.live_eq key
  cases acted : command.action server client ((db.live now key).map Slot.entry) with
  | error fault =>
    refine .inl ⟨fault, ?_, ?_⟩
    · rw [step, run_of_fault alike.sane.tidy clocked acted]
      rfl
    · rw [← same] at acted
      rw [step, run_of_fault alike.otherSane.tidy otherClocked acted]
      rfl
  | ok out =>
    obtain ⟨after, ran⟩ := run_of_action alike.sane.tidy clocked acted
    rw [← same] at acted
    obtain ⟨otherAfter, otherRan⟩ := run_of_action alike.otherSane.tidy otherClocked acted
    have changed := (changed_run alike.sane.tidy ran).2
    have otherChanged := (changed_run alike.otherSane.tidy otherRan).2
    rw [same, alike.clock] at otherChanged
    refine .inr ⟨after, otherAfter, some out.reply, ?_, ?_, ?_⟩
    · rw [step, ran]
      rfl
    · rw [step, otherRan]
      rfl
    · exact alike.changed
        (inTime_apply alike.sane.started (inTime_live alike.sane now key) out.change)
        changed otherChanged

/-- The commands that go to the dictionaries see no difference under a key that is not dead. -/
theorem Alike.raw (alike : Alike now db other) {key : Bytes} (command : RawCommand)
    (careful : (db.slot key).all (fun slot => !slot.dead db.logiclock now) = true) :
    Together now (db.step server now (.raw key command))
      (other.step server now (.raw key command)) := by
  have same : other.slot key = db.slot key := by
    rcases alike.slots key with same | ⟨_, slot, found, dead⟩
    · exact same
    · rw [found, Option.all_some, dead] at careful
      cases careful
  have acts : ∀ area : RedisDb σ, area.Tidy → area.slot key = db.slot key →
      command.act now (area.dict.lookup key) (area.expires.lookup key) =
        command.act now ((db.slot key).map Slot.entry) ((db.slot key).bind Slot.expire) := by
    intro area tidy alike
    rw [← alike, entry_of_slot, expire_of_slot tidy]
  have acted := acts db alike.sane.tidy rfl
  have otherActed := acts other alike.otherSane.tidy same
  cases result : command.act now ((db.slot key).map Slot.entry)
      ((db.slot key).bind Slot.expire) with
  | error fault =>
    rw [result] at acted otherActed
    refine .inl ⟨fault, ?_, ?_⟩
    · rw [step, runRaw, acted]
      rfl
    · rw [step, runRaw, otherActed]
      rfl
  | ok out =>
    rw [result] at acted otherActed
    have changed := changed_change alike.sane.tidy key out.change
    have otherChanged := changed_change alike.otherSane.tidy key out.change
    rw [same, alike.clock] at otherChanged
    refine .inr ⟨_, _, some out.reply, ?_, ?_,
      alike.changed (inTime_apply alike.sane.started (alike.sane.clocked key) out.change)
        changed otherChanged⟩
    · rw [step, runRaw, acted]
      rfl
    · rw [step, runRaw, otherActed]
      rfl

theorem Alike.step (alike : Alike now db other) {event : Event σ}
    (careful : db.careful now event = true) :
    Together now (db.step server now event) (other.step server now event) := by
  cases event with
  | command key client command => exact alike.command key client command
  | raw key command => exact alike.raw command careful
  | clear =>
    have turns : db.logiclock + 1 ≠ 0 := of_decide_eq_true careful
    have grows := UInt32.le_of_lt (lt_succ_of_ne_zero turns)
    refine .inr ⟨_, _, none, rfl, rfl, ?_, ?_, ?_, ?_⟩
    · exact congrArg (· + 1) alike.clock
    · exact ⟨alike.sane.tidy, turns, fun key slot found =>
        ⟨(alike.sane.clocked key slot found).1,
          UInt32.le_trans (alike.sane.clocked key slot found).2 grows⟩⟩
    · have otherGrows : other.logiclock ≤ other.lazyflushdb.logiclock := by
        change other.logiclock ≤ other.logiclock + 1
        rw [alike.clock]
        exact grows
      refine ⟨alike.otherSane.tidy, ?_, fun key slot found =>
        ⟨(alike.otherSane.clocked key slot found).1,
          UInt32.le_trans (alike.otherSane.clocked key slot found).2 otherGrows⟩⟩
      change other.logiclock + 1 ≠ 0
      rw [alike.clock]
      exact turns
    · intro key
      exact (alike.slots key).imp_right fun ⟨gone, slot, found, dead⟩ =>
        ⟨gone, slot, found, Slot.dead_mono grows (le_refl now) dead⟩
  | evict key =>
    exact .inr ⟨_, _, none, rfl, rfl, alike.changed (fun _ bad => by cases bad)
      (changed_dbDelete alike.sane.tidy key) (changed_dbDelete alike.otherSane.tidy key)⟩

/-! ### Runs -/

theorem Alike.replies (alike : Alike now db other) {events : List (Int × Event σ)}
    (ordered : (now :: events.map Prod.fst).Pairwise (· ≤ ·))
    (careful : db.carefully server events = true) :
    other.replies server events = db.replies server events := by
  induction events generalizing now db other with
  | nil => rfl
  | cons first rest ih =>
    obtain ⟨later, event⟩ := first
    obtain ⟨first, ordered⟩ := List.pairwise_cons.mp ordered
    have times : now ≤ later := first later List.mem_cons_self
    obtain ⟨careful, more⟩ := Bool.and_eq_true_iff.mp careful
    unfold RedisDb.replies
    rcases (alike.wait times).step careful with
      ⟨fault, ran, otherRan⟩ | ⟨after, otherAfter, reply, ran, otherRan, stillAlike⟩
    · rw [ran, otherRan]
    · rw [ran] at more
      have next := ih stillAlike ordered more
      rw [ran, otherRan]
      change (otherAfter.replies server rest >>= _) = (after.replies server rest >>= _)
      rw [next]

omit [LinearOrder σ] in
theorem Sane.alike (sane : db.Sane) (now : Int) : Alike now db db :=
  ⟨rfl, sane, sane, fun _ => .inl rfl⟩

theorem Sane.step {event : Event σ} {reply : Option (Reply σ)} (sane : db.Sane)
    (careful : db.careful now event = true)
    (ran : db.step server now event = .ok (after, reply)) : after.Sane := by
  have together : Together now (db.step server now event) (db.step server now event) :=
    (sane.alike now).step careful
  rcases together with ⟨fault, faulted, _⟩ | ⟨next, _, _, stepped, _, alike⟩
  · cases ran.symm.trans faulted
  · cases ran.symm.trans stepped
    exact alike.sane

end Alike

def fresh : RedisDb σ := { dict := ∅, expires := ∅, logiclock := 1, needRemoveKey := 0 }

theorem sane_fresh : (fresh : RedisDb σ).Sane :=
  ⟨fun _ _ => rfl, show (1 : UInt32) ≠ 0 by decide, fun _ _ bad => by cases bad⟩

theorem dead_of_lazyflushdb {db : RedisDb σ} (sane : db.Sane) (turns : db.logiclock + 1 ≠ 0)
    (now : Int) {key : Bytes} {slot : Slot σ} (found : db.lazyflushdb.slot key = some slot) :
    slot.dead db.lazyflushdb.logiclock now = true := by
  have young := (sane.clocked key slot found).2
  exact decide_eq_true (.inl (UInt32.lt_of_le_of_lt young (lt_succ_of_ne_zero turns)))

/-- In a run without careless steps a dead key is as good as absent: all replies are those of an
area that lacks the key and has everything else. -/
theorem dead_key_as_absent [LinearOrder σ] (server : Server σ) {db : RedisDb σ} {key : Bytes}
    {slot : Slot σ} {now : Int} (sane : db.Sane) (found : db.slot key = some slot)
    (dead : slot.dead db.logiclock now = true) {events : List (Int × Event σ)}
    (ordered : (now :: events.map Prod.fst).Pairwise (· ≤ ·))
    (careful : db.carefully server events = true) :
    ∃ lacking : RedisDb σ, lacking.slot key = none ∧
      (∀ other, other ≠ key → lacking.slot other = db.slot other) ∧
      lacking.logiclock = db.logiclock ∧
      db.replies server events = lacking.replies server events := by
  have changed := changed_dbDelete sane.tidy key
  have alike : Alike now db (db.dbDelete key) := by
    refine ⟨changed.clock, sane, changed.sane sane (fun _ impossible => by cases impossible), ?_⟩
    intro other
    by_cases own : other = key
    · subst own
      exact .inr ⟨changed.here, slot, found, dead⟩
    · exact .inl (changed.elsewhere other own)
  exact ⟨db.dbDelete key, changed.here, changed.elsewhere, changed.clock,
    (alike.replies ordered careful).symm⟩

end RedisDb

def expiringKey : RedisDb Nat :=
  { dict := AList.singleton [107]
      { value := .string (.raw [97]), version := 1, logiclock := 1 }
    expires := AList.singleton [107] 3
    logiclock := 1
    needRemoveKey := 0 }

def wholeServer : Server Nat :=
  { settings :=
      { listMaxZiplistEntries := 512
        listMaxZiplistValue := 64
        listMaxSize := 8192
        hashMaxZipmapEntries := 512
        hashMaxZipmapValue := 64
        hashMaxSize := 8192
        setMaxIntsetEntries := 512
        setMaxSize := 8192
        zsetMaxSize := 8192 }
    scores := ⟨fun left right => some (left + right), id⟩ }

theorem sane_expiringKey : expiringKey.Sane :=
  @RedisDb.Sane.step Nat 1 RedisDb.fresh expiringKey _ wholeServer
    (.command [107] ⟨0, true, -1⟩ (.set false [97] (some 3))) _ RedisDb.sane_fresh rfl rfl

/-- A read and a removal of a key whose time is over. -/
theorem dead_key_as_absent_expired :
    ∃ lacking : RedisDb Nat, lacking.slot [107] = none ∧
      (∀ other, other ≠ [107] → lacking.slot other = expiringKey.slot other) ∧
      lacking.logiclock = expiringKey.logiclock ∧
      expiringKey.replies wholeServer
          [(5, .command [107] ⟨0, true, -1⟩ .get), (6, .raw [107] .del)] =
        lacking.replies wholeServer
          [(5, .command [107] ⟨0, true, -1⟩ .get), (6, .raw [107] .del)] :=
  @RedisDb.dead_key_as_absent Nat _ wholeServer expiringKey [107] _ 5 sane_expiringKey rfl rfl
    [(5, .command [107] ⟨0, true, -1⟩ .get), (6, .raw [107] .del)] (by decide) rfl

/-- The time of the key is over at 5. It is made to stay then, and a read brings its value. -/
theorem dead_key_comes_back :
    (expiringKey.slot [107]).any (fun slot => slot.dead expiringKey.logiclock 5) = true ∧
      expiringKey.replies wholeServer
          [(5, .raw [107] .persist), (6, .command [107] ⟨0, true, -1⟩ .get)] =
        .ok [some ⟨.ok, .nothing, 0⟩, some ⟨.ok, .values [.robj (.raw [97])], 1⟩] :=
  ⟨rfl, rfl⟩

end Tair.Rdb
