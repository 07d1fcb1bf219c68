/-
What the memory engine keeps of what it was given. A record notes the last successful put of every
key that was not removed since; whatever item can be found is compared with it.

Two defects show here. A put without an expiry writes none, so that an item in the slot of an
evicted one takes over its expiry. And the mark of a deleted item is looked for in the whole id of
the item, where the size of its slab is found in its place.
-/

import Tair.Mdb.Invariant

namespace Tair.Mdb

open MdbManager Tair.Common Tair.Library

structure Written where
  data : DataEntry
  version : UInt16
  expired : Int32
  now : UInt32

structure Recorded where
  manager : MdbManager
  written : List UInt8 → Option Written

namespace Recorded

def step (state : Recorded) : Operation → Except Fault Recorded
  | .put key data versionCare expired now evictNow =>
    (fun (result : MdbManager × ReturnCode × DataEntry) =>
      { manager := result.1
        written := if result.2.1 = .success then
            Function.update state.written key.data
              (some ⟨data, result.2.2.dataMeta.version, expired, now⟩)
          else state.written }) <$>
      state.manager.doPut key data versionCare expired now evictNow
  | .remove key =>
    (fun (result : MdbManager × ReturnCode) =>
      { manager := result.1
        written := if result.2 = .success then Function.update state.written key.data none
          else state.written }) <$>
      state.manager.doRemove key
  | operation => (fun next => { state with manager := next }) <$> state.manager.step operation

def start (manager : MdbManager) : Recorded := ⟨manager, fun _ => none⟩

end Recorded

theorem exists_recorded (Allowed : Recorded → Operation → Prop)
    [∀ state operation, Decidable (Allowed state operation)] (operations : List Operation)
    (P : Recorded → Prop)
    (ran : ∃ start, initialized smallParam = .ok start ∧ ∃ state,
      guardedRun Recorded.step Allowed operations (.start start) = some state ∧ P state) :
    ∃ start state, initialized smallParam = .ok start ∧
      Reached Recorded.step Allowed (Recorded.start start) state ∧ P state := by
  obtain ⟨start, begun, ran⟩ := ran
  obtain ⟨state, reached, passes⟩ := exists_run operations ran
  exact ⟨start, state, begun, reached, passes⟩

def OfBody (Faithful : Written → MdbItem → Prop) : Prop :=
  ∀ put item other, MdbItem.body item = other.body → Faithful put other → Faithful put item

structure Records (Faithful : Written → MdbItem → Prop) (state : Recorded) (layout : Layout) :
    Prop where
  intact : Intact state.manager layout
  put : ∀ slot, layout.Live slot → ∃ put,
    state.written (state.manager.items slot).key = some put ∧
      Faithful put (state.manager.items slot)

def StoresFaithful (Faithful : Written → MdbItem → Prop) (manager : MdbManager) :
    Operation → Prop
  | .put key data versionCare expired now evictNow =>
    ∀ found cleared removal old, manager.find key.data = .ok found →
      manager.doRemove key = .ok (cleared, removal) →
      Sound.Inherits cleared key data evictNow old → itemFlags old.itemId = 0 →
      let version := putVersion key versionCare (found.map manager.items) now
      Faithful ⟨data, version, expired, now⟩
        (fillItem key data version expired (oldFlag (found.map manager.items)) now old)
  | _ => True

namespace Records

variable {Faithful : Written → MdbItem → Prop} {state next : Recorded} {layout relaid : Layout}

section

variable (ofBody : OfBody Faithful) (records : Records Faithful state layout)

include ofBody records

theorem shrinks (intact : Intact next.manager relaid)
    (fewer : Shrinks state.manager layout next.manager relaid)
    (same : ∀ slot, relaid.Live slot → next.written (next.manager.items slot).key =
      state.written (next.manager.items slot).key) : Records Faithful next relaid := by
  refine ⟨intact, ?_⟩
  intro slot found
  obtain ⟨prior, body⟩ := fewer slot found
  obtain ⟨put, noted, faithful⟩ := records.put slot prior
  refine ⟨put, ?_, ofBody _ _ _ body faithful⟩
  rw [same slot found, MdbItem.key_of_body body]
  exact noted

theorem loses (fewer : Loses state.manager next.manager) (same : next.written = state.written) :
    ∃ relaid, Records Faithful next relaid := by
  obtain ⟨relaid, intact, fewer⟩ := fewer layout records.intact
  exact ⟨relaid, records.shrinks ofBody intact fewer (fun _ _ => congrFun same _)⟩

theorem stores {key : List UInt8} {put : Written} {slot : Slot} {old item : MdbItem}
    (stored : Sound.Stores state.manager layout next.manager relaid slot old item)
    (faithful : Faithful put item) (isKey : item.key = key)
    (noted : next.written = Function.update state.written key (some put)) :
    Records Faithful next relaid := by
  have own : (next.manager.items slot).key = key := (MdbItem.key_of_body stored.body).trans isKey
  refine ⟨⟨stored.sound, stored.unset⟩, ?_⟩
  intro other found
  by_cases same : other = slot
  · rw [same, own, noted, Function.update_self]
    exact ⟨put, rfl, ofBody _ _ _ stored.body faithful⟩
  · obtain ⟨prior, body⟩ := stored.shrinks other same found
    obtain ⟨before, was, stillFaithful⟩ := records.put other prior
    refine ⟨before, ?_, ofBody _ _ _ body stillFaithful⟩
    have ne : (next.manager.items other).key ≠ key := by
      intro equal
      exact same (stored.sound.settled.distinct other slot found stored.live (equal.trans own.symm))
    rw [noted, Function.update_of_ne ne, MdbItem.key_of_body body]
    exact was

end

theorem step {op : Operation} (ofBody : OfBody Faithful)
    (records : Records Faithful state layout) (served : op.Served state.manager)
    (faithful : StoresFaithful Faithful state.manager op)
    (ran : state.step op = .ok next) : ∃ relaid, Records Faithful next relaid := by
  have intact := records.intact
  cases op with
  | put key data versionCare expired now evictNow =>
    obtain ⟨⟨after, code, entry⟩, put, same⟩ := ok_of_map ran
    obtain ⟨found, search, -, out⟩ := intact.1.doPut intact.2 served put
    cases out with
    | inl turned =>
      obtain ⟨turned, rfl, -⟩ := turned
      rw [same, turned]
      exact ⟨layout, records.intact, records.put⟩
    | inr stored =>
      obtain ⟨success, -, version, clean, removal, removed, relaid, slot, old, inherits,
        stored⟩ := stored
      cases same
      refine ⟨relaid, records.stores ofBody stored (faithful found clean removal old search
        removed inherits stored.flags) (fillItem_key served) ?_⟩
      dsimp only
      rw [if_pos success, version]
  | remove key =>
    obtain ⟨⟨after, code⟩, removed, same⟩ := ok_of_map ran
    obtain ⟨relaid, sound, unset, fewer, gone⟩ := intact.1.doRemove intact.2 removed
    cases same
    refine ⟨relaid, records.shrinks ofBody ⟨sound, unset⟩ fewer ?_⟩
    intro slot found
    dsimp only
    split
    · exact Function.update_of_ne (gone slot found) _ _
    · rfl
  | _ =>
    obtain ⟨after, done, same⟩ := ok_of_map ran
    cases same
    exact records.loses ofBody (Loses.step rfl done) rfl

theorem reached {Allowed : Recorded → Operation → Prop} (ofBody : OfBody Faithful)
    (allowed : ∀ {state op}, Allowed state op →
      op.Served state.manager ∧ StoresFaithful Faithful state.manager op)
    {param : MdbParam} {start : MdbManager} (begun : initialized param = .ok start)
    (run : Reached Recorded.step Allowed (Recorded.start start) state) :
    ∃ layout, Records Faithful state layout := by
  apply run.invariant (fun state => ∃ layout, Records Faithful state layout)
  · obtain ⟨layout, intact, nothing⟩ := intact_initialized begun
    exact ⟨layout, intact, fun slot found => absurd found (nothing slot)⟩
  · intro state next op records meets ran
    obtain ⟨layout, records⟩ := records
    obtain ⟨served, faithful⟩ := allowed meets
    exact records.step ofBody served faithful ran

end Records

/-! ### Expiry -/

/-- The second in which an item ends by what its put asked for, or 0. -/
def promisedExptime (expired : Int32) (now : UInt32) : Nat :=
  if expired.toInt ≤ 0 then 0
  else if now.toNat < expired.toInt.toNat then expired.toInt.toNat
  else now.toNat + expired.toInt.toNat

/-- A put without an expiry does not take the slot of an item that has one, and a relative
expiry ends within 32 bits. -/
def Operation.keepsExpiry (manager : MdbManager) : Operation → Bool
  | .put key data _ expired now evictNow =>
    if 0 < expired then
      now.toNat < expired.toInt.toNat || now.toNat + expired.toInt.toNat < 2 ^ 32
    else match manager.doRemove key with
      | .error _ => true
      | .ok (cleared, _) =>
        (cleared.putVictim key data evictNow).all
          (fun victim => (cleared.items victim).exptime = 0)
  | _ => true

namespace Written

def ExptimeKept (put : Written) (item : MdbItem) : Prop :=
  item.exptime.toNat = promisedExptime put.expired put.now

theorem ofBody_exptimeKept : OfBody ExptimeKept := by
  intro put item other same kept
  unfold ExptimeKept
  rw [MdbItem.exptime_of_body same]
  exact kept

theorem toNat_exptimeOf {expired : Int32} {now : UInt32} (pos : 0 < expired)
    (fits : now.toNat < expired.toInt.toNat ∨ now.toNat + expired.toInt.toNat < 2 ^ 32) :
    (exptimeOf expired now).toNat = promisedExptime expired now := by
  have above : 0 < expired.toInt := Int32.lt_iff_toInt_lt.mp pos
  have same : expired.toUInt32.toNat = expired.toInt.toNat := by
    have cond := BitVec.toInt_eq_toNat_cond expired.toBitVec
    change expired.toInt = _ at cond
    change expired.toBitVec.toNat = _
    have bound := expired.toBitVec.isLt
    split at cond <;> omega
  unfold exptimeOf promisedExptime
  rw [if_neg (not_le.mpr above), ← same]
  rw [← same] at fits
  by_cases later : now.toNat < expired.toUInt32.toNat
  · rw [if_pos later, if_pos (UInt32.lt_iff_toNat_lt.mpr later)]
  · rw [if_neg later, if_neg (fun less => later (UInt32.lt_iff_toNat_lt.mp less)), UInt32.toNat_add]
    exact Nat.mod_eq_of_lt (fits.resolve_left later)

theorem stores_exptimeKept {mdb : MdbManager} {op : Operation} (keeps : op.keepsExpiry mdb = true) :
    StoresFaithful ExptimeKept mdb op := by
  cases op with
  | put key data versionCare expired now evictNow =>
    intro found clean removal old _ gone inherits _
    dsimp only [Operation.keepsExpiry] at keeps
    change (if 0 < expired then _ else old.exptime).toNat = promisedExptime expired now
    by_cases pos : 0 < expired
    · rw [if_pos pos] at keeps ⊢
      apply toNat_exptimeOf pos
      rw [Bool.or_eq_true, decide_eq_true_iff, decide_eq_true_iff] at keeps
      exact keeps
    · rw [if_neg pos, gone] at keeps
      dsimp only at keeps
      have plain : old.exptime = 0 := by
        cases inherits with
        | inl zero => exact zero
        | inr evicted =>
          obtain ⟨victim, isVictim, same⟩ := evicted
          rw [isVictim] at keeps
          rw [← same]
          exact of_decide_eq_true keeps
      have none : expired.toInt ≤ 0 := by
        rw [Int32.lt_iff_toInt_lt] at pos
        exact not_lt.mp pos
      rw [if_neg pos, plain]
      unfold promisedExptime
      rw [if_pos none]
      rfl
  | _ => trivial

end Written

/-- What a run keeps of the expiry of every key, if all its puts keep expiries apart. -/
theorem exptime_of_recorded {param : MdbParam} {start : MdbManager} {state : Recorded}
    (begun : initialized param = .ok start)
    (reached : Reached Recorded.step (fun state operation => operation.Served state.manager ∧
      operation.keepsExpiry state.manager = true) (Recorded.start start) state) (key : DataEntry) :
    (∀ slot, state.manager.find key.data = .ok (some slot) →
      ∃ put, state.written key.data = some put ∧
        (state.manager.items slot).exptime.toNat = promisedExptime put.expired put.now ∧
        (put.expired.toInt ≤ 0 → ∀ now, expired (state.manager.items slot) now = false ∧
            overdue (state.manager.items slot) now = false)) ∧
      ∀ data now next keyOut dataOut,
        state.manager.doGet key data now = .ok (next, .dataExpired, keyOut, dataOut) →
        ∃ put, state.written key.data = some put ∧ 0 < put.expired.toInt := by
  obtain ⟨layout, records⟩ := Records.reached Written.ofBody_exptimeKept
    (fun both => ⟨both.1, Written.stores_exptimeKept both.2⟩) begun reached
  have stored : ∀ slot, Sound.Found state.manager layout key.data (some slot) →
      ∃ put, state.written key.data = some put ∧ put.ExptimeKept (state.manager.items slot) := by
    intro slot finds
    cases finds with
    | present _ found same =>
      obtain ⟨put, noted, kept⟩ := records.put slot found
      rw [same] at noted
      exact ⟨put, noted, kept⟩
  have unlimited : ∀ {put : Written} {item : MdbItem}, put.ExptimeKept item →
      put.expired.toInt ≤ 0 → item.exptime = 0 := by
    intro put item kept none
    unfold Written.ExptimeKept promisedExptime at kept
    rw [if_pos none] at kept
    exact UInt32.toNat_inj.mp kept
  constructor
  · intro slot search
    obtain ⟨put, noted, kept⟩ := stored slot (records.intact.1.find search)
    refine ⟨put, noted, kept, fun none now => ?_⟩
    have zero := unlimited kept none
    unfold expired overdue
    rw [zero]
    exact ⟨rfl, rfl⟩
  · intro data now next keyOut dataOut got
    obtain ⟨found, search, outcome⟩ := doGet_cases got
    cases outcome with
    | inl absent => cases absent.2.1
    | inr present =>
      obtain ⟨slot, rfl, outcome⟩ := present
      obtain ⟨put, noted, kept⟩ := stored slot (records.intact.1.find search)
      refine ⟨put, noted, ?_⟩
      cases outcome with
      | inr fresh => cases fresh.1
      | inl past =>
        by_contra none
        have zero := unlimited kept (not_lt.mp none)
        have past := past.1
        unfold expired at past
        rw [zero] at past
        cases past

/-- Two items of an area with enough memory, one with an expiry and one without. -/
theorem exptime_of_two_items : ∃ start state, initialized smallParam = .ok start ∧
    Reached Recorded.step (fun state operation => operation.Served state.manager ∧
      operation.keepsExpiry state.manager = true) (Recorded.start start) state ∧
    ∃ slot, state.manager.find [1, 0, 66] = .ok (some slot) ∧
      ∃ put, state.written [1, 0, 66] = some put ∧
        (state.manager.items slot).exptime.toNat = promisedExptime put.expired put.now := by
  obtain ⟨start, state, begun, reached, _, search, slot, rfl, -⟩ := exists_recorded
    (fun state operation => operation.Served state.manager ∧
      operation.keepsExpiry state.manager = true)
    [.setAreaQuota 1 1000, .put (entryOf [1, 0, 65]) (entryOf [7]) true 100 1000 1000,
      putOf [1, 0, 66] [8]]
    (fun state => ∃ found, state.manager.find [1, 0, 66] = .ok found ∧
      ∃ slot, found = some slot ∧ True) (by decide +kernel)
  obtain ⟨put, noted, kept, -⟩ :=
    (exptime_of_recorded begun reached (entryOf [1, 0, 66])).1 slot search
  exact ⟨start, state, begun, reached, slot, search, put, noted, kept⟩

/-- An area above its quota: the second item takes the slot of the first one, and a put
without an expiry ends in an item that expires. -/
theorem exptime_of_evicted : ∃ start state, initialized smallParam = .ok start ∧
    Reached Recorded.step (fun state operation => operation.Served state.manager)
      (Recorded.start start) state ∧
    ∃ put next keyOut dataOut, state.written [1, 0, 66] = some put ∧ put.expired = 0 ∧
      state.manager.doGet (entryOf [1, 0, 66]) (entryOf []) 1101 =
        .ok (next, .dataExpired, keyOut, dataOut) := by
  obtain ⟨start, state, begun, reached, put, noted, ⟨next, code, keyOut, dataOut⟩, got, rfl, zero⟩ :=
      exists_recorded
    (fun state operation => operation.Served state.manager)
    [.put (entryOf [1, 0, 65]) (entryOf [7]) true 100 1000 1000, putOf [1, 0, 66] [8]]
    (fun state => ∃ put, state.written [1, 0, 66] = some put ∧
      ∃ result, state.manager.doGet (entryOf [1, 0, 66]) (entryOf []) 1101 = .ok result ∧
        result.2.1 = .dataExpired ∧ put.expired = 0) (by decide +kernel)
  exact ⟨start, state, begun, reached, put, next, keyOut, dataOut, noted, zero, got⟩

/-! ### Contents -/

/-- The value has less than a megabyte, which is more than the servers let through. -/
def Operation.valueFits : Operation → Bool
  | .put _ data _ _ _ _ => data.data.length < 2 ^ 20
  | _ => true

/-- What a put finds under its key is not taken for an item that is marked as deleted, or
the put has this mark itself. -/
def Operation.keepsFlags (manager : MdbManager) : Operation → Bool
  | .put key data _ _ _ _ =>
    match manager.find key.data with
    | .ok (some slot) =>
      !isDeleted (manager.items slot).itemId || isDeleted data.dataMeta.flag.toNat
    | _ => true
  | _ => true

namespace Written

structure ContentsKept (put : Written) (item : MdbItem) : Prop where
  value : item.value = put.data.data
  flags : itemFlags item.itemId = put.data.dataMeta.flag.toNat % 2 ^ 4
  version : item.version = put.version

theorem ofBody_contentsKept : OfBody ContentsKept := by
  intro put item other same kept
  refine ⟨?_, ?_, ?_⟩
  · have read := congrArg MdbItem.value same
    exact read.trans kept.value
  · rw [MdbItem.itemId_of_body same]
    exact kept.flags
  · have read := congrArg MdbItem.version same
    exact read.trans kept.version

theorem or_oldFlag {flag : Nat} (marked : isDeleted flag = true) :
    flag ||| tairItemFlagDeleted = flag := by
  apply Nat.eq_of_testBit_eq
  intro bit
  rw [Nat.testBit_or]
  by_cases one : bit = 1
  · rw [one]
    unfold isDeleted at marked
    rw [marked, Bool.true_or]
  · have zero : tairItemFlagDeleted.testBit bit = false := by
      unfold tairItemFlagDeleted
      rw [show (2 : Nat) = 2 ^ 1 from rfl, Nat.testBit_two_pow]
      exact decide_eq_false (fun same => one same.symm)
    rw [zero, Bool.or_false]

theorem stores_contentsKept {mdb : MdbManager} {op : Operation}
    (served : op.Served mdb) (fits : op.valueFits = true) (keeps : op.keepsFlags mdb = true) :
    StoresFaithful ContentsKept mdb op := by
  cases op with
  | put key data versionCare expired now evictNow =>
    intro found clean removal old search _ _ plain version
    refine ⟨fillItem_value served (of_decide_eq_true fits), ?_, rfl⟩
    refine (itemFlags_setItemFlags plain _).trans ?_
    congr 1
    dsimp only [Operation.keepsFlags] at keeps
    rw [search] at keeps
    cases found with
    | none => exact Nat.or_zero _
    | some slot =>
      dsimp only at keeps
      change _ ||| (if isDeleted (mdb.items slot).itemId then _ else 0) = _
      by_cases marked : isDeleted (mdb.items slot).itemId = true
      · rw [if_pos marked]
        rw [marked] at keeps
        exact or_oldFlag keeps
      · rw [if_neg marked]
        exact Nat.or_zero _
  | _ => trivial

end Written

/-- A map with loss: what a get returns is what was put last and not removed since, and a
put that is turned away changes nothing. -/
theorem contents_of_recorded {param : MdbParam} {start : MdbManager} {state : Recorded}
    (begun : initialized param = .ok start)
    (reached : Reached Recorded.step (fun state operation => operation.Served state.manager ∧
      operation.valueFits = true ∧ operation.keepsFlags state.manager = true)
      (Recorded.start start) state) :
    (∀ key data now next keyOut dataOut,
      state.manager.doGet key data now = .ok (next, .success, keyOut, dataOut) →
      ∃ put, state.written key.data = some put ∧ dataOut.data = put.data.data ∧
        dataOut.dataMeta.flag.toNat % 2 ^ 4 = put.data.dataMeta.flag.toNat % 2 ^ 4 ∧
        dataOut.dataMeta.version = put.version) ∧
      ∀ key data versionCare expired now evictNow next entry,
        state.manager.doPut key data versionCare expired now evictNow =
          .ok (next, .versionError, entry) → next = state.manager := by
  obtain ⟨layout, records⟩ := Records.reached Written.ofBody_contentsKept
    (fun all => ⟨all.1, Written.stores_contentsKept all.1 all.2.1 all.2.2⟩) begun reached
  constructor
  · intro key data now next keyOut dataOut got
    obtain ⟨found, search, outcome⟩ := doGet_cases got
    cases outcome with
    | inl absent => cases absent.2.1
    | inr present =>
      obtain ⟨slot, rfl, outcome⟩ := present
      cases outcome with
      | inl past => cases past.2.1
      | inr fresh =>
        obtain ⟨-, read, -⟩ := fresh
        cases records.intact.1.find search with
        | present _ found same =>
          obtain ⟨put, noted, kept⟩ := records.put slot found
          rw [same] at noted
          cases read
          refine ⟨put, noted, ?_, ?_, kept.version⟩
          · exact kept.value
          · change (UInt8.ofNat (itemFlags (state.manager.items slot).itemId)).toNat % _ = _
            rw [kept.flags, UInt8.toNat_ofNat']
            omega
  · intro key data versionCare expired now evictNow next entry put
    obtain ⟨found, -, outcome⟩ := doPut_cases put
    cases outcome with
    | inl turned => exact turned.2.1
    | inr stored => cases stored.1

/-- A value of twenty bytes lies in the second slab, whose size has bit 1 clear; it can be
put again. -/
theorem contents_of_second_slab : ∃ start state, initialized smallParam = .ok start ∧
    Reached Recorded.step (fun state operation => operation.Served state.manager ∧
      operation.valueFits = true ∧ operation.keepsFlags state.manager = true)
      (Recorded.start start) state ∧
    ∃ next keyOut dataOut, state.manager.doGet { entryOf [1, 0, 65] with area := 1 } (entryOf [])
        1001 = .ok (next, .success, keyOut, dataOut) ∧
      ∃ put, state.written [1, 0, 65] = some put ∧ dataOut.data = put.data.data := by
  obtain ⟨start, state, begun, reached, ⟨next, code, keyOut, dataOut⟩, got, rfl⟩ := exists_recorded
    (fun state operation => operation.Served state.manager ∧
      operation.valueFits = true ∧ operation.keepsFlags state.manager = true)
    [.put (entryOf [1, 0, 65]) (entryOf (List.replicate 20 7)) true 0 1000 1000,
      .put (entryOf [1, 0, 65]) (entryOf (List.replicate 20 8)) true 0 1000 1000]
    (fun state => ∃ result, state.manager.doGet { entryOf [1, 0, 65] with area := 1 } (entryOf [])
      1001 = .ok result ∧ result.2.1 = .success) (by decide +kernel)
  obtain ⟨put, noted, same, -⟩ := (contents_of_recorded begun reached).1 _ _ _ _ _ _ got
  exact ⟨start, state, begun, reached, next, keyOut, dataOut, got, put, noted, same⟩

/-- The first slab has slots of 62 bytes. An item there counts as deleted when it is put
again, and its flags change from 0 to 2. -/
theorem flags_of_first_slab : ∃ start state, initialized smallParam = .ok start ∧
    Reached Recorded.step (fun state operation => operation.Served state.manager)
      (Recorded.start start) state ∧
    ∃ put next keyOut dataOut, state.written [1, 0, 65] = some put ∧
      state.manager.doGet { entryOf [1, 0, 65] with area := 1 } (entryOf []) 1001 =
        .ok (next, .success, keyOut, dataOut) ∧
      put.data.dataMeta.flag = 0 ∧ dataOut.dataMeta.flag = 2 := by
  obtain ⟨start, state, begun, reached, put, noted, ⟨next, code, keyOut, dataOut⟩, got, rfl, flags⟩ :=
      exists_recorded
    (fun state operation => operation.Served state.manager)
    [putOf [1, 0, 65] [7], putOf [1, 0, 65] [8]]
    (fun state => ∃ put, state.written [1, 0, 65] = some put ∧
      ∃ result, state.manager.doGet { entryOf [1, 0, 65] with area := 1 } (entryOf []) 1001 =
          .ok result ∧ result.2.1 = .success ∧
        put.data.dataMeta.flag = 0 ∧ result.2.2.2.dataMeta.flag = 2) (by decide +kernel)
  exact ⟨start, state, begun, reached, put, next, keyOut, dataOut, noted, got, flags⟩

end Tair.Mdb
