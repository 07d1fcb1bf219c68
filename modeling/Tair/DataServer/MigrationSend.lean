/-
What can be stored and what can be migrated. Sizes are checked on the bare key when it comes from
a client and on the merged one when it comes from a migration. A record that is refused is sent
for ever.
-/

import Tair.DataServer.Mupdate
import Tair.Kdb.Manager
import Tair.Mdb.Capacity

namespace Tair.DataServer

open Tair.Common (DataEntry ReturnCode ItemMeta MergedKey tairMaxKeySize tairMaxDataSize)
open Tair.Library

variable {τ σ : Type}

/-- An engine that in the states it can be in takes a record exactly if it accepts the number, the
key and the value. What it accepts stays the same. -/
structure StorageManager.Lawful (engine : StorageManager τ σ) (Valid : σ → Prop)
    (Accepts : σ → Int → List UInt8 → List UInt8 → Prop) : Prop where
  put_accepted : ∀ clock store number key value, Valid store →
    Accepts store number key.data value.data →
    ∃ after, engine.put clock store number key value false 0 = .ok (after, .success)
  remove_accepted : ∀ clock store number key value, Valid store →
    Accepts store number key.data value →
    ∃ after rc, engine.remove clock store number key false = .ok (after, rc) ∧
      (rc = .success ∨ rc = .dataNotExist)
  accepts_of_put : ∀ clock store number key value after, Valid store →
    engine.put clock store number key value false 0 = .ok (after, .success) →
    Accepts store number key.data value.data
  put_keeps : ∀ clock store number key value after rc, Valid store → MergedKey key.data →
    engine.put clock store number key value false 0 = .ok (after, rc) →
    Valid after ∧ ∀ other bytes content,
      Accepts after other bytes content ↔ Accepts store other bytes content

structure StoredItem where
  area : UInt16
  key : DataEntry
  value : DataEntry

namespace StoredItem

def recordKey (item : StoredItem) (header : ItemMeta) : DataEntry :=
  { (default : DataEntry) with
    data := (item.key.mergeArea item.area.toNat).data
    hasMerged := true
    dataMeta := header }

def recordValue (item : StoredItem) (header : ItemMeta) : DataEntry :=
  { (default : DataEntry) with
    data := item.value.data
    dataMeta := header }

def Accepted (engine : StorageManager τ σ) (item : StoredItem) : Prop :=
  item.key.hasMerged = false ∧
    ∃ clock store expireTime after,
      engine.managerPut clock store item.area item.key item.value expireTime =
        .ok (after, .success)

def readArea (item : StoredItem) : Int :=
  signedArea (UInt8.ofNat item.area.toNat) (UInt8.ofNat (item.area.toNat / 256))

variable {engine : StorageManager τ σ} {item : StoredItem}

section

variable (accepted : item.Accepted engine)

include accepted

theorem Accepted.sizes : keySizeFits item.key ∧ dataSizeFits item.value := by
  obtain ⟨_bare, clock, store, expireTime, after, stored⟩ := accepted
  unfold StorageManager.managerPut at stored
  split_ifs at stored with keyFits dataFits
  · exact ⟨keyFits, dataFits⟩
  · cases stored
  · cases stored

theorem Accepted.key_cons : ∃ first rest, item.key.data = first :: rest := by
  have fits := accepted.sizes.1
  cases bytes : item.key.data with
  | nil =>
    unfold keySizeFits at fits
    rw [bytes] at fits
    exact absurd (.inr Nat.zero_lt_one) fits
  | cons first rest => exact ⟨first, rest, rfl⟩

variable (header : ItemMeta)

theorem Accepted.recordKey_data :
    (item.recordKey header).data =
      UInt8.ofNat item.area.toNat :: UInt8.ofNat (item.area.toNat / 256) :: item.key.data := by
  obtain ⟨first, rest, bytes⟩ := accepted.key_cons
  change (item.key.mergeArea item.area.toNat).data = _
  unfold DataEntry.mergeArea
  rw [accepted.1, if_neg Bool.false_ne_true, if_neg (by rw [bytes]; exact List.cons_ne_nil _ _)]
  rfl

theorem Accepted.decodedArea_recordKey :
    decodedArea (item.recordKey header) = .ok item.readArea := by
  obtain ⟨first, rest, bytes⟩ := accepted.key_cons
  have data := accepted.recordKey_data header
  rw [bytes] at data
  unfold decodedArea
  rw [if_pos (show (item.recordKey header).hasMerged = true from rfl), data]
  rfl

theorem Accepted.mergedKey : MergedKey (item.recordKey header).data := by
  have fits := accepted.sizes.1
  unfold keySizeFits at fits
  unfold MergedKey
  rw [accepted.recordKey_data header, List.length_cons, List.length_cons]
  omega

theorem Accepted.keySizeFits_iff :
    keySizeFits (item.recordKey header) ↔ item.key.data.length + 2 < tairMaxKeySize := by
  unfold keySizeFits
  rw [accepted.recordKey_data header, List.length_cons, List.length_cons]
  omega

end

end StoredItem

/-! ### The receiver -/

section Receiver

variable {engine : StorageManager τ σ} {Valid : σ → Prop}
  {Accepts : σ → Int → List UInt8 → List UInt8 → Prop} {item : StoredItem}

def StoredItem.Fits (Accepts : σ → Int → List UInt8 → List UInt8 → Prop) (store : σ)
    (item : StoredItem) : Prop :=
  item.key.data.length + 2 < tairMaxKeySize ∧
    Accepts store item.readArea (item.key.mergeArea item.area.toNat).data item.value.data

theorem directPut_iff (lawful : engine.Lawful Valid Accepts) (accepted : item.Accepted engine)
    (clock : τ) {store : σ} (valid : Valid store) (header : ItemMeta) :
    (∃ after, engine.directPut clock store (item.recordKey header) (item.recordValue header) =
        .ok (after, .success)) ↔
      item.Fits Accepts store := by
  have dataFits : dataSizeFits (item.recordValue header) := accepted.sizes.2
  unfold StorageManager.directPut StoredItem.Fits
  rw [← accepted.keySizeFits_iff header, accepted.decodedArea_recordKey header,
    if_neg (not_not_intro dataFits)]
  by_cases keyFits : keySizeFits (item.recordKey header)
  · rw [if_neg (not_not_intro keyFits)]
    constructor
    · rintro ⟨after, stored⟩
      exact ⟨keyFits, lawful.accepts_of_put _ _ _ { item.recordKey header with
        area := item.readArea.toNat } (item.recordValue header) _ valid stored⟩
    · rintro ⟨_keyFits, accepts⟩
      exact lawful.put_accepted _ _ _ _ _ valid accepts
  · rw [if_pos keyFits]
    constructor
    · rintro ⟨after, bad⟩
      cases bad
    · rintro ⟨bad, _⟩
      exact absurd bad keyFits

theorem directPut_of_long (accepted : item.Accepted engine)
    (long : ¬ item.key.data.length + 2 < tairMaxKeySize) (clock : τ) (store : σ)
    (header : ItemMeta) :
    engine.directPut clock store (item.recordKey header) (item.recordValue header) =
      .ok (store, .itemsizeError) :=
  if_pos (fun fits => long ((accepted.keySizeFits_iff header).mp fits))

theorem directPut_keeps (lawful : engine.Lawful Valid Accepts) {clock : τ} {store after : σ}
    {key value : DataEntry} {rc : ReturnCode} (valid : Valid store) (merged : MergedKey key.data)
    (stored : engine.directPut clock store key value = .ok (after, rc)) :
    Valid after ∧ ∀ other bytes content,
      Accepts after other bytes content ↔ Accepts store other bytes content := by
  unfold StorageManager.directPut at stored
  split_ifs at stored with keyFits dataFits
  · obtain ⟨area, _decoded, put⟩ := ok_of_bind stored
    exact lawful.put_keeps _ _ _ { key with area := area.toNat } _ _ _ valid merged put
  · cases stored
    exact ⟨valid, fun _ _ _ => .rfl⟩
  · cases stored
    exact ⟨valid, fun _ _ _ => .rfl⟩

theorem directRemove_of_fits (lawful : engine.Lawful Valid Accepts)
    (accepted : item.Accepted engine) (clock : τ) (header : ItemMeta) {store : σ}
    (valid : Valid store) (fits : item.Fits Accepts store) :
    ∃ after, engine.directRemove clock store (item.recordKey header) = .ok (after, .success) := by
  obtain ⟨after, rc, gone, code⟩ :=
    lawful.remove_accepted clock store item.readArea (item.recordKey header) _ valid fits.2
  unfold StorageManager.directRemove
  rw [if_neg (not_not_intro ((accepted.keySizeFits_iff header).mpr fits.1)),
    accepted.decodedArea_recordKey header]
  refine ⟨after, ?_⟩
  change (engine.remove clock store item.readArea (item.recordKey header) false >>= _) = _
  rw [gone]
  rcases code with done | absent
  · subst done
    rfl
  · subst absent
    rfl

def mupdateOf (packet : List (StoredItem × ItemMeta)) : RequestMupdate where
  serverFlag := .migrate
  keyAndValues := packet.map (fun entry =>
    .put (entry.1.recordKey entry.2) (entry.1.recordValue entry.2))

theorem applyRecords_of_fits (lawful : engine.Lawful Valid Accepts) (clock : τ)
    {packet : List (StoredItem × ItemMeta)} {store : σ} (valid : Valid store)
    (accepted : ∀ entry ∈ packet, entry.1.Accepted engine)
    (fits : ∀ entry ∈ packet, entry.1.Fits Accepts store) :
    ∃ after, engine.applyRecords clock (mupdateOf packet).keyAndValues store =
      .ok (after, .success) := by
  induction packet generalizing store with
  | nil => exact ⟨store, rfl⟩
  | cons entry rest ih =>
    have first := accepted entry List.mem_cons_self
    obtain ⟨after, stored⟩ := (directPut_iff lawful first clock valid entry.2).mpr
      (fits entry List.mem_cons_self)
    obtain ⟨still, same⟩ := directPut_keeps lawful valid (first.mergedKey entry.2) stored
    have restFits : ∀ later ∈ rest, later.1.Fits Accepts after := by
      intro later member
      obtain ⟨size, accepts⟩ := fits later (List.mem_cons_of_mem _ member)
      exact ⟨size, (same _ _ _).mpr accepts⟩
    obtain ⟨final, applied⟩ :=
      ih still (fun later member => accepted later (List.mem_cons_of_mem _ member)) restFits
    refine ⟨final, ?_⟩
    change (engine.directPut clock store _ _ >>= _) = _
    rw [stored]
    exact applied

end Receiver

/-! ### The sender -/

theorem sendPacket_succ (answers : Nat → UInt64 → Option ReturnCode) (rounds round : Nat)
    (destServers : List UInt64) :
    sendPacket answers (fun _ => false) (rounds + 1) round destServers =
      if sendRound (answers round) destServers = [] then some true
      else sendPacket answers (fun _ => false) rounds (round + 1)
        (sendRound (answers round) destServers) := rfl

/-- The loop ends in the round in which the last destination has answered with success. -/
theorem sendPacket_ends {answers : Nat → UInt64 → Option ReturnCode} {more start : Nat}
    {destServers : List UInt64}
    (answered : ∀ server ∈ destServers, ∃ round, start ≤ round ∧ round ≤ start + more ∧
      answers round server = some .success) :
    ∃ rounds, rounds ≤ more + 1 ∧
      sendPacket answers (fun _ => false) rounds start destServers = some true := by
  induction more generalizing start destServers with
  | zero =>
    have none : sendRound (answers start) destServers = [] := by
      refine List.filter_eq_nil_iff.mpr ?_
      intro server member waiting
      obtain ⟨round, low, high, done⟩ := answered server member
      have same : round = start := by omega
      subst same
      exact of_decide_eq_true waiting done
    refine ⟨1, Nat.le_refl 1, ?_⟩
    rw [sendPacket_succ, if_pos none]
  | succ more ih =>
    by_cases none : sendRound (answers start) destServers = []
    · refine ⟨1, Nat.le_add_left .., ?_⟩
      rw [sendPacket_succ, if_pos none]
    · have later : ∀ server ∈ sendRound (answers start) destServers, ∃ round,
          start + 1 ≤ round ∧ round ≤ start + 1 + more ∧
            answers round server = some .success := by
        intro server member
        obtain ⟨listed, waiting⟩ := List.mem_filter.mp member
        obtain ⟨round, low, high, done⟩ := answered server listed
        have past : round ≠ start := by
          intro same
          subst same
          exact of_decide_eq_true waiting done
        exact ⟨round, by omega, by omega, done⟩
      obtain ⟨rounds, few, ended⟩ := ih later
      refine ⟨rounds + 1, Nat.succ_le_succ few, ?_⟩
      rw [sendPacket_succ, if_neg none]
      exact ended

theorem sendPacket_refused {answers : Nat → UInt64 → Option ReturnCode} {server : UInt64}
    (refused : ∀ round, answers round server ≠ some .success) (rounds round : Nat) :
    sendPacket answers (fun _ => false) rounds round [server] = none := by
  induction rounds generalizing round with
  | zero => rfl
  | succ rounds ih =>
    have same : sendRound (answers round) [server] = [server] :=
      List.filter_cons_of_pos (decide_eq_true (refused round))
    rw [sendPacket_succ, same, if_neg (List.cons_ne_nil _ _)]
    exact ih (round + 1)

/-- What comes back from the destinations, as they are when the packet of a round arrives.
Packets and answers may get lost. -/
def answersOf (engine : StorageManager τ σ) (clock : Nat → UInt64 → τ)
    (dests : Nat → UInt64 → WriteServer σ) (req : RequestMupdate) (replies : Nat → UInt64 → Bool)
    (round : Nat) (server : UInt64) : Option ReturnCode :=
  if replies round server then
    match (dests round server).processMupdate engine (clock round server) req with
    | .ok (_, rc) => some rc
    | .error _ => none
  else none

theorem sendPacket_of_long {engine : StorageManager τ σ} {item : StoredItem}
    (accepted : item.Accepted engine) (long : ¬ item.key.data.length + 2 < tairMaxKeySize)
    {dests : Nat → UInt64 → WriteServer σ} (clock : Nat → UInt64 → τ)
    (working : ∀ round server, (dests round server).manager.isWorking) (header : ItemMeta)
    (replies : Nat → UInt64 → Bool) (server : UInt64) (rounds : Nat) :
    sendPacket (answersOf engine clock dests (mupdateOf [(item, header)]) replies)
      (fun _ => false) rounds 0 [server] = none := by
  apply sendPacket_refused
  intro round success
  have refused : (dests round server).processMupdate engine (clock round server)
      (mupdateOf [(item, header)]) = .ok ((dests round server).store, .itemsizeError) := by
    unfold WriteServer.processMupdate
    rw [working round server]
    change (engine.directPut _ _ (item.recordKey header) (item.recordValue header) >>= _) = _
    rw [directPut_of_long accepted long]
    rfl
  unfold answersOf at success
  rw [refused] at success
  split_ifs at success
  cases success

/-- Every record is taken by every destination whenever it comes, and its removal too; so the
packet is answered with success, and the sender's loop ends once all have answered. -/
structure Migratable (engine : StorageManager τ σ) (clock : Nat → UInt64 → τ)
    (dests : Nat → UInt64 → WriteServer σ) (packet : List (StoredItem × ItemMeta)) : Prop where
  put : ∀ entry ∈ packet, ∀ round server, ∃ after,
    engine.directPut (clock round server) (dests round server).store (entry.1.recordKey entry.2)
      (entry.1.recordValue entry.2) = .ok (after, .success)
  remove : ∀ entry ∈ packet, ∀ round server, ∃ after,
    engine.directRemove (clock round server) (dests round server).store
      (entry.1.recordKey entry.2) = .ok (after, .success)
  mupdate : ∀ round server, ∃ after,
    (dests round server).processMupdate engine (clock round server) (mupdateOf packet) =
      .ok (after, .success)
  ends : ∀ (replies : Nat → UInt64 → Bool) (destServers : List UInt64) (last : Nat),
    (∀ server ∈ destServers, ∃ round ≤ last, replies round server) →
    ∃ rounds ≤ last + 1,
      sendPacket (answersOf engine clock dests (mupdateOf packet) replies) (fun _ => false) rounds
        0 destServers = some true

/-- Items that a put has accepted can be migrated exactly if their merged keys are not too long
and the destinations accept them under the number that the bytes of the area stand for. -/
theorem migratable_iff {engine : StorageManager τ σ} {Valid : σ → Prop}
    {Accepts : σ → Int → List UInt8 → List UInt8 → Prop} {clock : Nat → UInt64 → τ}
    {dests : Nat → UInt64 → WriteServer σ} {packet : List (StoredItem × ItemMeta)}
    (lawful : engine.Lawful Valid Accepts)
    (working : ∀ round server, (dests round server).manager.isWorking)
    (valid : ∀ round server, Valid (dests round server).store)
    (accepted : ∀ entry ∈ packet, entry.1.Accepted engine) :
    Migratable engine clock dests packet ↔
      ∀ entry ∈ packet, entry.1.key.data.length + 2 < tairMaxKeySize ∧
        ∀ round server, Accepts (dests round server).store entry.1.readArea
          (entry.1.key.mergeArea entry.1.area.toNat).data entry.1.value.data := by
  constructor
  · intro migratable entry member
    have fits : ∀ round server, entry.1.Fits Accepts (dests round server).store :=
      fun round server => (directPut_iff lawful (accepted entry member) _ (valid _ _) _).mp
        (migratable.put entry member round server)
    exact ⟨(fits 0 0).1, fun round server => (fits round server).2⟩
  · intro condition
    have fits : ∀ round server, ∀ entry ∈ packet,
        entry.1.Fits Accepts (dests round server).store :=
      fun round server entry member =>
        ⟨(condition entry member).1, (condition entry member).2 round server⟩
    have answered : ∀ round server, ∃ after,
        (dests round server).processMupdate engine (clock round server) (mupdateOf packet) =
          .ok (after, .success) := by
      intro round server
      unfold WriteServer.processMupdate
      rw [working round server]
      exact applyRecords_of_fits lawful (clock round server) (valid _ _) accepted
        (fits round server)
    refine ⟨?_, ?_, answered, ?_⟩
    · intro entry member round server
      exact (directPut_iff lawful (accepted entry member) _ (valid _ _) _).mpr
        (fits round server entry member)
    · intro entry member round server
      exact directRemove_of_fits lawful (accepted entry member) _ _ (valid _ _)
        (fits round server entry member)
    · intro replies destServers last replied
      have succeeded : ∀ server ∈ destServers, ∃ round, 0 ≤ round ∧ round ≤ 0 + last ∧
          answersOf engine clock dests (mupdateOf packet) replies round server =
            some .success := by
        intro server member
        obtain ⟨round, before, reply⟩ := replied server member
        obtain ⟨after, done⟩ := answered round server
        refine ⟨round, Nat.zero_le _, by omega, ?_⟩
        unfold answersOf
        rw [if_pos reply, done]
      exact sendPacket_ends succeeded

/-! ### The engines -/

def kdbAccepts (manager : Kdb.KdbManager) (number : Int) (_ _ : List UInt8) : Prop :=
  (manager.lookup number).isSome

theorem kdbStorage_lawful : Kdb.kdbStorage.Lawful (fun _ => True) kdbAccepts where
  put_accepted now manager number key value _ accepts := by
    obtain ⟨bucket, found⟩ := Option.isSome_iff_exists.mp accepts
    obtain ⟨item, stored⟩ := Kdb.KdbBucket.put_of_careless bucket now key value 0
    refine ⟨manager.insert number (bucket.insert key.data item.encode), ?_⟩
    refine congrArg Except.ok ((Kdb.KdbManager.onBucket_of_open found _ _).trans ?_)
    exact congrArg (fun done => (manager.insert number done.1, done.2)) stored
  remove_accepted now manager number key _ _ accepts := by
    obtain ⟨bucket, found⟩ := Option.isSome_iff_exists.mp accepts
    refine ⟨_, _, congrArg Except.ok (Kdb.KdbManager.onBucket_of_open found _ _), ?_⟩
    rcases Kdb.KdbBucket.remove_cases bucket key false with absent | ⟨_, bad⟩ | removed
    · exact .inr (congrArg Prod.snd absent)
    · cases bad
    · exact .inl (congrArg Prod.snd removed)
  accepts_of_put now manager number key value after _ stored := by
    unfold kdbAccepts
    cases found : manager.lookup number with
    | some bucket => rfl
    | none =>
      have failed := Kdb.KdbManager.onBucket_of_closed found
        (fun bucket => bucket.put now key value false 0)
        ReturnCode.failed
      have bad := (congrArg Except.ok failed).symm.trans stored
      cases bad
  put_keeps now manager number key value after rc _ _ stored := by
    have same : (manager.put now number key value false 0).1 = after :=
      congrArg Prod.fst (Except.ok.inj stored)
    subst same
    exact ⟨trivial, fun other _ _ => Iff.of_eq (congrArg (· = true)
      (Kdb.KdbManager.isSome_lookup_onBucket manager number other _ _))⟩

/-- The number of the bucket is not used. The clock is read once and again for evictions. -/
def mdbStorage : StorageManager (UInt32 × UInt32) Mdb.MdbManager where
  put clock mdb _ key value versionCare expireTime :=
    (fun done => (done.1, done.2.1)) <$>
      mdb.doPut key value versionCare (Int32.ofInt expireTime) clock.1 clock.2
  remove _ mdb _ key _ := mdb.doRemove key

/-- The area is one that `alloc_item` knows, and some slab has slots for the record. -/
def mdbAccepts (mdb : Mdb.MdbManager) (_ : Int) (key value : List UInt8) : Prop :=
  Mdb.keyArea key < Common.tairMaxAreaCount ∧ ∃ slab, slab < mdb.slabsCount ∧
    key.length + value.length + Mdb.mdbItemSize ≤ (mdb.slabs slab).slabSize

theorem mdbAccepts_iff {mdb next : Mdb.MdbManager} (steady : Mdb.Steady mdb next) (number : Int)
    (key value : List UInt8) :
    mdbAccepts next number key value ↔ mdbAccepts mdb number key value := by
  unfold mdbAccepts
  simp only [steady.slabsCount, steady.slabSize]

theorem mdbStorage_lawful : mdbStorage.Lawful
    (fun mdb => ∃ layout, Mdb.Kept mdb layout ∧ Mdb.Stocked mdb) mdbAccepts where
  put_accepted clock mdb number key value valid accepts := by
    obtain ⟨layout, kept, stocked⟩ := valid
    obtain ⟨inside, slab, bound, enough⟩ := accepts
    obtain ⟨⟨next, code, entry⟩, put⟩ : ∃ result, mdb.doPut key value false 0 clock.1 clock.2 =
        .ok result := kept.doPut_ends stocked inside ⟨bound, enough⟩ false
    refine ⟨next, ?_⟩
    change (fun done => (done.1, done.2.1)) <$> mdb.doPut key value false 0 clock.1 clock.2 = _
    rw [put]
    obtain ⟨found, -, ⟨-, -, item, -, -, careless, -⟩ | ⟨done, -⟩⟩ :=
      Mdb.MdbManager.doPut_cases put
    · cases careless
    · rw [done]
      rfl
  remove_accepted clock mdb number key value valid accepts := by
    obtain ⟨layout, kept, stocked⟩ := valid
    obtain ⟨found, search⟩ := kept.intact.1.find_ends key.data
    cases found with
    | none => exact ⟨mdb, _, Mdb.MdbManager.doRemove_none search, .inr rfl⟩
    | some slot =>
      obtain ⟨gone, removal⟩ := kept.intact.1.removeItem_ends slot
      exact ⟨gone, _, Mdb.MdbManager.doRemove_some search removal, .inl rfl⟩
  accepts_of_put clock mdb number key value after valid stored := by
    obtain ⟨layout, kept, stocked⟩ := valid
    obtain ⟨⟨next, code, entry⟩, put, same⟩ := ok_of_map stored
    cases same
    obtain ⟨found, -, ⟨failed, -⟩ | ⟨-, -, clean, removal, removed, stored⟩⟩ :=
      Mdb.MdbManager.doPut_cases put
    · cases failed
    · have steady := Mdb.Steady.of_sheds (Mdb.Sweeps.doRemove removed layout kept.intact)
      obtain ⟨slab, given, slot, type, bare, -, chosen, alloc, -⟩ :=
        Mdb.MdbManager.store_parts stored
      obtain ⟨enough, bound, -⟩ := List.find?_range_eq_some.mp chosen
      exact (mdbAccepts_iff steady number _ _).mp ⟨(Common.ok_of_check alloc).1, slab,
        List.mem_range.mp bound, of_decide_eq_true enough⟩
  put_keeps clock mdb number key value after rc valid merged stored := by
    obtain ⟨layout, kept, stocked⟩ := valid
    obtain ⟨⟨next, code, entry⟩, put, same⟩ := ok_of_map stored
    cases same
    obtain ⟨relaid, still⟩ := kept.doPut merged put
    have steady := Mdb.Steady.doPut kept.intact put
    exact ⟨⟨relaid, still, stocked.steady steady⟩, mdbAccepts_iff steady⟩

def longItem (size : Nat) : StoredItem where
  area := 0
  key := { (default : DataEntry) with data := List.replicate size 107 }
  value := { (default : DataEntry) with data := [118] }

def kdbDestination : WriteServer Kdb.KdbManager where
  manager := { TairManager.started with status := .canWork }
  currentLockedBucket := none
  store := Kdb.KdbManager.initBuckets ∅ [0]

theorem longItem_accepted {size : Nat} (nonempty : 0 < size) (short : size < tairMaxKeySize) :
    (longItem size).Accepted Kdb.kdbStorage := by
  have keyFits : keySizeFits (longItem size).key := by
    unfold keySizeFits
    change ¬ ((List.replicate size 107).length ≥ _ ∨ (List.replicate size 107).length < 1)
    rw [List.length_replicate]
    omega
  have dataFits : dataSizeFits (longItem size).value :=
    show dataSizeFits { (default : DataEntry) with data := [118] } by decide
  have isOpen : (Kdb.KdbManager.initBuckets ∅ [0]).lookup (0 : Int) = some ∅ := rfl
  refine ⟨rfl, 5, Kdb.KdbManager.initBuckets ∅ [0], 0, ?_⟩
  unfold StorageManager.managerPut
  rw [if_neg (not_not_intro keyFits), if_neg (not_not_intro dataFits)]
  exact ⟨_, congrArg Except.ok ((Kdb.KdbManager.onBucket_of_open isOpen _ _).trans rfl)⟩

theorem longItem_migratable :
    (longItem 1021).Accepted Kdb.kdbStorage ∧
      Migratable Kdb.kdbStorage (fun _ _ => 5) (fun _ _ => kdbDestination)
        [(longItem 1021, default)] := by
  have accepted :=
    longItem_accepted (show 0 < 1021 by decide) (show 1021 < tairMaxKeySize by decide)
  refine ⟨accepted, (migratable_iff kdbStorage_lawful (fun _ _ => rfl) (fun _ _ => trivial)
    ?_).mpr ?_⟩
  · intro entry member
    rw [List.mem_singleton.mp member]
    exact accepted
  · intro entry member
    rw [List.mem_singleton.mp member]
    refine ⟨?_, fun _ _ => rfl⟩
    change (List.replicate 1021 (107 : UInt8)).length + 2 < tairMaxKeySize
    rw [List.length_replicate]
    decide

/-- A key of 1022 bytes is stored, but its record is refused and sent for ever. -/
theorem longItem_refused :
    (longItem 1022).Accepted Kdb.kdbStorage ∧
      Kdb.kdbStorage.directPut 5 kdbDestination.store ((longItem 1022).recordKey default)
          ((longItem 1022).recordValue default) = .ok (kdbDestination.store, .itemsizeError) ∧
      ∀ rounds,
        sendPacket (answersOf Kdb.kdbStorage (fun _ _ => 5) (fun _ _ => kdbDestination)
          (mupdateOf [(longItem 1022, default)]) (fun _ _ => true)) (fun _ => false) rounds 0 [7] =
            none := by
  have accepted :=
    longItem_accepted (show 0 < 1022 by decide) (show 1022 < tairMaxKeySize by decide)
  have long : ¬ (longItem 1022).key.data.length + 2 < tairMaxKeySize := by
    change ¬ (List.replicate 1022 (107 : UInt8)).length + 2 < tairMaxKeySize
    rw [List.length_replicate]
    decide
  exact ⟨accepted, directPut_of_long accepted long 5 _ _,
    fun rounds => sendPacket_of_long accepted long _ (fun _ _ => rfl) _ _ _ rounds⟩

end Tair.DataServer
