/-
Who may write. The master of a bucket takes the writes of clients, other servers those that are
forwarded or replicated to them, and nobody writes to a bucket whose migration is about to end. No
write path asks for either.
-/

import Tair.Common.Hash
import Tair.Kdb.Manager
import Tair.Library.Machine

namespace Tair.DataServer

open Tair.Common (DataEntry ReturnCode murMurHash)

/-- `is_master`, in the table or in that of the migration. -/
def TableManager.isMaster (manager : TableManager) (localIp : UInt64) (bucketNumber : Nat)
    (serverFlag : ServerFlag) : Except ConfigServer.Fault Bool := do
  let table ← manager.getServerTable
  let index := if serverFlag = .proxy then bucketNumber + manager.hashTableSize else bucketNumber
  return decide ((← readAt table index) = localIp)

namespace WriteServer

variable {τ σ : Type}

section Owners

variable (manager : TairManager) (locked : Option Nat) (localIp : UInt64)

def MayWriteTo (serverFlag : ServerFlag) (key : DataEntry) : Prop :=
  let bucket := manager.getBucketNumber (murMurHash key.data)
  (serverFlag = .proxy ∨ serverFlag = .duplicate ∨
    manager.tableMgr.isMaster localIp bucket .client = .ok true) ∧ locked ≠ some bucket

def call (engine : StorageManager τ σ) (clock : τ) (store : σ) (key : DataEntry) :
    ClientWrite → Except Common.Fault (σ × ReturnCode)
  | .put req => engine.managerPut clock store req.area req.entry req.data req.expired
  | .remove req => engine.managerRemove clock store req.area key

/-- What the engine makes of some keys of a write, with the answer to the last one. -/
def stored (engine : StorageManager τ σ) (clock : τ) (write : ClientWrite) (keys : List DataEntry)
    (done : σ × ReturnCode) : Except Common.Fault (σ × ReturnCode) :=
  keys.foldlM (fun done key => call engine clock done.1 key write) done

/-- With every engine, a key that the server may not write to brings an answer other than
success, and the store stays or becomes what the other keys make of it. -/
def OwnerOnly (write : ClientWrite) : Prop :=
  ∀ (τ σ : Type) (engine : StorageManager τ σ) (clock : τ) (store : σ),
    (∀ fault, process engine clock localIp ⟨manager, locked, store⟩ write ≠
      .error (.tables fault)) ∧
    ∀ key ∈ write.keys, ¬MayWriteTo manager locked localIp write.serverFlag key →
      ∀ after rc, process engine clock localIp ⟨manager, locked, store⟩ write = .ok (after, rc) →
        rc ≠ .success ∧ (after = store ∨ ∃ other, stored engine clock write
          (write.keys.filter (· ≠ key)) (store, .success) = .ok (after, other))

/-! ### What is asked -/

def Stopped : ClientWrite → Prop
  | .put req => manager.isWorking = false ∨
      ∃ target, manager.proxyTarget localIp req.hashCode = .ok (some target)
  | .remove _ => manager.isWorking = false

def Passes : ClientWrite → Prop
  | .put req => manager.isWorking ∧ manager.proxyTarget localIp req.hashCode = .ok none
  | .remove _ => manager.isWorking

end Owners

/-- The sizes that `tair_manager` asks for. -/
def Fits : ClientWrite → DataEntry → Prop
  | .put req, _ => keySizeFits req.key ∧ dataSizeFits req.data
  | .remove _, key => keySizeFits key

instance (write : ClientWrite) (key : DataEntry) : Decidable (Fits write key) :=
  match write with
  | .put _ => inferInstanceAs (Decidable (_ ∧ _))
  | .remove _ => inferInstanceAs (Decidable (keySizeFits key))

variable {engine : StorageManager τ σ} {clock : τ} {manager : TairManager} {locked : Option Nat}
  {localIp : UInt64} {write : ClientWrite} {key : DataEntry} {keys : List DataEntry}

theorem process_of_stopped (engine : StorageManager τ σ) (clock : τ) (server : WriteServer σ)
    (ended : Stopped server.manager localIp write) :
    ∃ rc, rc ≠ .success ∧ server.process engine clock localIp write = .ok (server.store, rc) := by
  cases write with
  | put req =>
    by_cases idle : server.manager.isWorking = false
    · exact ⟨.serverCanNotWork, by decide, if_pos idle⟩
    · obtain ⟨target, proxied⟩ := ended.resolve_left idle
      refine ⟨.shouldProxy, by decide, (if_neg idle).trans ?_⟩
      rw [proxied]
  | remove req => exact ⟨.serverCanNotWork, by decide, if_pos ended⟩

theorem process_of_passes (engine : StorageManager τ σ) (clock : τ) (server : WriteServer σ)
    (passes : Passes server.manager localIp write) :
    server.process engine clock localIp write =
      (stored engine clock write write.keys (server.store, .success)).mapError .storage := by
  cases write with
  | put req =>
    refine (if_neg (by rw [passes.1]; decide)).trans ?_
    rw [passes.2]
    exact congrArg (Except.mapError Crash.storage)
      (bind_pure (call engine clock server.store req.key (.put req))).symm
  | remove req => exact if_neg (by rw [show _ = true from passes]; decide)

/-- Otherwise the table has no place for the bucket that a put names. -/
theorem process_of_neither (engine : StorageManager τ σ) (clock : τ) (server : WriteServer σ)
    (unstopped : ¬Stopped server.manager localIp write)
    (held : ¬Passes server.manager localIp write) :
    ∃ fault, server.process engine clock localIp write = .error (.tables fault) := by
  cases write with
  | put req =>
    have works : server.manager.isWorking = true :=
      Bool.not_eq_false _ |>.mp fun idle => unstopped (.inl idle)
    cases asked : server.manager.proxyTarget localIp req.hashCode with
    | error fault =>
      refine ⟨fault, (if_neg (by rw [works]; decide)).trans ?_⟩
      rw [asked]
    | ok target =>
      cases target with
      | none => exact absurd ⟨works, asked⟩ held
      | some target => exact absurd (.inr ⟨target, asked⟩) unstopped
  | remove req => exact absurd (Bool.not_eq_false _ |>.mp unstopped) held

/-! ### Keys of a wrong size -/

theorem call_of_not_fits (unfit : ¬Fits write key) (store : σ) :
    call engine clock store key write = .ok (store, .itemsizeError) := by
  cases write with
  | put req =>
    by_cases sized : keySizeFits req.entry
    · exact (if_neg (not_not.mpr sized)).trans (if_pos fun valued => unfit ⟨sized, valued⟩)
    · exact if_pos sized
  | remove req => exact if_pos unfit

theorem stored_cons_of_not_fits (unfit : ¬Fits write key) (done : σ × ReturnCode) :
    stored engine clock write (key :: keys) done =
      stored engine clock write keys (done.1, .itemsizeError) := by
  rw [stored, List.foldlM_cons, call_of_not_fits unfit]
  rfl

/-- The answer so far is forgotten with the next key. -/
theorem stored_without (unfit : ¬Fits write key) {store after : σ} {code rc : ReturnCode}
    (ran : stored engine clock write keys (store, code) = .ok (after, rc)) (before : ReturnCode) :
    ∃ other, stored engine clock write (keys.filter (· ≠ key)) (store, before) =
      .ok (after, other) := by
  induction keys generalizing store code before with
  | nil =>
    cases ran
    exact ⟨before, rfl⟩
  | cons first keys ih =>
    by_cases same : first = key
    · subst same
      rw [stored_cons_of_not_fits unfit] at ran
      rw [List.filter_cons_of_neg (by simp)]
      exact ih ran before
    · obtain ⟨middle, stepped, ran⟩ := Library.ok_of_bind ((List.foldlM_cons ..).symm.trans ran)
      obtain ⟨other, rest⟩ := ih ran middle.2
      rw [List.filter_cons_of_pos (by simpa using same)]
      refine ⟨other, (List.foldlM_cons ..).trans ?_⟩
      rw [stepped]
      exact rest

theorem code_of_last_not_fits {last : DataEntry} (unfit : ¬Fits write last)
    (isLast : keys.getLast? = some last) {done after : σ × ReturnCode}
    (ran : stored engine clock write keys done = .ok after) : after.2 = .itemsizeError := by
  obtain ⟨before, rfl⟩ := List.getLast?_eq_some_iff.mp isLast
  unfold stored at ran
  rw [List.foldlM_append] at ran
  obtain ⟨middle, -, ran⟩ := Library.ok_of_bind ran
  cases ran.symm.trans (stored_cons_of_not_fits unfit middle)
  rfl

/-! ### Keys of a right size -/

/-- An engine that takes everything and counts. -/
def counting : StorageManager Unit Nat where
  put _ calls _ _ _ _ _ := .ok (calls + 1, .success)
  remove _ calls _ _ _ := .ok (calls + 1, .success)

theorem call_counting (fits : Fits write key) (calls : Nat) :
    call counting () calls key write = .ok (calls + 1, .success) := by
  cases write with
  | put req => exact (if_neg (not_not.mpr fits.1)).trans (if_neg (not_not.mpr fits.2))
  | remove req => exact if_neg (not_not.mpr fits)

theorem stored_counting (keys : List DataEntry) (done : Nat × ReturnCode) :
    stored counting () write keys done =
      .ok (done.1 + (keys.filter (Fits write)).length, keys.getLast?.elim done.2 fun last =>
        if Fits write last then .success else .itemsizeError) := by
  induction keys generalizing done with
  | nil => rfl
  | cons key keys ih =>
    by_cases fits : Fits write key
    · rw [stored, List.foldlM_cons, call_counting fits, List.filter_cons_of_pos (by simpa using fits),
        List.getLast?_cons]
      refine (ih _).trans ?_
      cases keys.getLast? <;> simp [fits, Nat.add_assoc, Nat.add_comm 1]
    · rw [stored_cons_of_not_fits fits, ih, List.filter_cons_of_neg (by simpa using fits),
        List.getLast?_cons]
      cases keys.getLast? <;> simp [fits]

/-- Only owners write exactly as far as a write is stopped for another reason, or every key is
the owner's or of a wrong size like the last key. -/
theorem owner_only_iff :
    OwnerOnly manager locked localIp write ↔
      Stopped manager localIp write ∨ Passes manager localIp write ∧
        ∀ key ∈ write.keys, MayWriteTo manager locked localIp write.serverFlag key ∨
          ¬Fits write key ∧ ∀ last ∈ write.keys.getLast?, ¬Fits write last := by
  by_cases stopped : Stopped manager localIp write
  · refine iff_of_true (fun τ σ engine clock store => ?_) (.inl stopped)
    obtain ⟨rc, failed, ran⟩ := process_of_stopped engine clock ⟨manager, locked, store⟩ stopped
    rw [ran]
    refine ⟨nofun, fun key _ _ after code result => ?_⟩
    cases result
    exact ⟨failed, .inl rfl⟩
  by_cases passes : Passes manager localIp write
  · constructor
    · intro owner
      refine .inr ⟨passes, fun key member => or_iff_not_imp_left.mpr fun other => ?_⟩
      have ran := process_of_passes counting () ⟨manager, locked, 0⟩ passes
      rw [stored_counting] at ran
      obtain ⟨failed, kept⟩ := (owner Unit Nat counting () 0).2 key member other _ _ ran
      constructor
      · intro fits
        have inside : key ∈ write.keys.filter (Fits write) :=
          List.mem_filter.mpr ⟨member, by simpa using fits⟩
        rcases kept with none | ⟨code, less⟩
        · have some := List.length_pos_of_mem inside
          omega
        · rw [stored_counting, List.filter_comm] at less
          have shorter : ((write.keys.filter (Fits write)).filter (· ≠ key)).length <
              (write.keys.filter (Fits write)).length :=
            List.length_filter_lt_length_iff_exists.mpr ⟨key, inside, by simp⟩
          have same := congrArg Prod.fst (Except.ok.inj less)
          dsimp only at same
          omega
      · intro last isLast fits
        rw [Option.mem_def.mp isLast, Option.elim_some, if_pos fits] at failed
        exact failed rfl
    · rintro (impossible | ⟨-, sized⟩) τ σ engine clock store
      · exact absurd impossible stopped
      rw [process_of_passes engine clock ⟨manager, locked, store⟩ passes]
      cases ran : stored engine clock write write.keys (store, .success) with
      | error fault => exact ⟨nofun, fun _ _ _ _ _ result => by cases result⟩
      | ok done =>
        refine ⟨nofun, fun key member other after rc result => ?_⟩
        cases result
        obtain ⟨unfit, last⟩ := (sized key member).resolve_left other
        refine ⟨fun good => ?_, .inr (stored_without unfit ran .success)⟩
        obtain ⟨final, isLast⟩ := List.getLast?_isSome.mpr (List.ne_nil_of_mem member) |>
          Option.isSome_iff_exists.mp
        cases (code_of_last_not_fits (last final isLast) isLast ran).symm.trans good
  · refine iff_of_false (fun owner => ?_) (not_or_intro stopped fun both => passes both.1)
    obtain ⟨fault, ran⟩ := process_of_neither counting () ⟨manager, locked, 0⟩ stopped passes
    exact (owner Unit Nat counting () 0).1 fault ran

end WriteServer

def tableOf (master : UInt64) : TairManager :=
  { TairManager.started with
    tableMgr := { TableManager.construct with
      serverTable := some #[master]
      copyCount := 1
      bucketCount := 1 }
    migrateDoneSet := #[false]
    status := .canWork }

def kdbServer (master : UInt64) (currentLockedBucket : Option Nat) :
    WriteServer Kdb.KdbManager where
  manager := tableOf master
  currentLockedBucket := currentLockedBucket
  store := Kdb.KdbManager.initBuckets ∅ [0]

def smallPut : PutRequest where
  serverFlag := .client
  area := 0
  version := 0
  expired := 0
  key := { (default : DataEntry) with data := [107] }
  data := { (default : DataEntry) with data := [118] }
  hashCode := -1

/-- A put of a client is stored by a server that is not the master, and by the master of a
bucket that is locked. -/
theorem stored_by_others :
    (∃ after, (kdbServer 2 none).process Kdb.kdbStorage 5 1 (.put smallPut) =
        .ok (after, .success) ∧ after ≠ (kdbServer 2 none).store) ∧
      ¬WriteServer.MayWriteTo (tableOf 2) none 1 .client smallPut.key ∧
      (∃ after, (kdbServer 1 (some 0)).process Kdb.kdbStorage 5 1 (.put smallPut) =
        .ok (after, .success) ∧ after ≠ (kdbServer 1 (some 0)).store) ∧
      ¬WriteServer.MayWriteTo (tableOf 1) (some 0) 1 .client smallPut.key := by
  let kept (store : Kdb.KdbManager) : Bool :=
    ((store.lookup 0).bind (fun bucket => bucket.lookup [0, 0, 107])).isSome
  refine ⟨⟨_, rfl, ?_⟩, ?_, ⟨_, rfl, ?_⟩, ?_⟩
  · intro same
    have impossible : true = false := congrArg kept same
    cases impossible
  · intro may
    have := may.1
    revert this
    decide
  · intro same
    have impossible : true = false := congrArg kept same
    cases impossible
  · exact fun may => may.2 rfl

end Tair.DataServer
