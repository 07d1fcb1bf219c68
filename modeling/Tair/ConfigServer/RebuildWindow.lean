/-
The config server as a machine, with a rebuild in two steps. A report accepted between the two
moves a row that the second step writes over with its older copy, unless it leaves the bucket with
the master it had.
-/

import Tair.ConfigServer.GroupSteps
import Tair.Library.Machine

namespace Tair.ConfigServer

open Std Tair.Library

variable {shape : Shape}

/-! ### The machine -/

/-- `rebuilding` are the local variables of the thread that builds tables, while it
does not hold the lock. There is only one such thread. -/
structure ConfState (shape : Shape) where
  group : GroupInfo shape
  rebuilding : Option (Rebuilding shape)

inductive ConfEvent (shape : Shape) where
  | rebuildSnapshot (fresh : Fresh) (up : UpnodeList)
  | rebuildCommit
  | doFinishMigrate (serverId : UInt64) (serverVersion : UInt32) (bucketId : Int)
  | doProxyReport (serverId : UInt64) (vecBucketNo : List UInt32)
  | checkMigrateComplete (down : UInt64 → Bool)
  | hardCheckMigrateComplete
  | incVersion (incStep : UInt32)

namespace ConfState

/-- A second rebuild does not start before the first one is done. -/
def step (state : ConfState shape) : ConfEvent shape → Except Fault (ConfState shape)
  | .rebuildSnapshot fresh up =>
    match state.rebuilding with
    | some _ => .ok state
    | none => (fun taken => ⟨taken.1, taken.2⟩) <$> state.group.rebuildSnapshot fresh up
  | .rebuildCommit =>
    match state.rebuilding with
    | some rebuilding => .ok ⟨state.group.rebuildCommit rebuilding, none⟩
    | none => .ok state
  | .doFinishMigrate serverId serverVersion bucketId =>
    (fun answer => ⟨answer.2, state.rebuilding⟩) <$>
      state.group.doFinishMigrate serverId serverVersion bucketId
  | .doProxyReport serverId vecBucketNo =>
    (fun group => ⟨group, state.rebuilding⟩) <$> state.group.doProxyReport serverId vecBucketNo
  | .checkMigrateComplete down =>
    (fun answer => ⟨answer.2, state.rebuilding⟩) <$> state.group.checkMigrateComplete down
  | .hardCheckMigrateComplete => .ok ⟨state.group.hardCheckMigrateComplete, state.rebuilding⟩
  | .incVersion incStep => .ok ⟨state.group.incVersion incStep, state.rebuilding⟩

end ConfState

/-! ### Progress of a migration -/

namespace GroupInfo

def Accepts (group : GroupInfo shape) (serverId : UInt64) (serverVersion : UInt32) (bucketId : Int)
    (idx : shape.Bucket) : Prop :=
  group.config.dataNeedMove = tairDataNeedMigrate ∧ serverVersion = group.serverVersion ∧
    group.isMigrating = true ∧ (bucketId % 2 ^ 64).toNat = idx.val ∧
    group.mHashTable.get shape.master idx = serverId ∧
    Differs group.mHashTable group.dHashTable idx

instance (group : GroupInfo shape) (serverId : UInt64) (serverVersion : UInt32) (bucketId : Int)
    (idx : shape.Bucket) : Decidable (group.Accepts serverId serverVersion bucketId idx) :=
  inferInstanceAs (Decidable (_ ∧ _ ∧ _ ∧ _ ∧ _ ∧ _))

theorem doFinishMigrate_ok {group next : GroupInfo shape} {id : UInt64}
    {serverVersion : UInt32} {bucketId : Int} {accepted : Bool}
    (result : group.doFinishMigrate id serverVersion bucketId = .ok (accepted, next)) :
    next = group ∨ ∃ (idx : shape.Bucket) (moving : CounterMap UInt64), accepted = true ∧
      group.Accepts id serverVersion bucketId idx ∧
      next = group.moveBucket idx moving := by
  unfold doFinishMigrate at result
  split_ifs at result with idle other
  · cases result
    exact Or.inl rfl
  · cases result
    exact Or.inl rfl
  · obtain ⟨reached, moved, isResult⟩ := ok_of_map result
    cases isResult
    rcases setMigratingHashtable_ok moved with
      same | ⟨idx, moving, bucket, migrating, master, ne, same⟩
    · exact Or.inl same
    · exact Or.inr ⟨idx, moving, rfl, ⟨not_not.mp idle, not_not.mp other, migrating,
        bucket, master, ne⟩, same⟩

/-- Rows go to their destination or stay; the destination, the configuration and
the servers do not change. -/
structure Advances (group next : GroupInfo shape) : Prop where
  config : next.config = group.config
  servers : next.availableServer = group.availableServer
  destination : next.dHashTable = group.dHashTable
  rows : ∀ idx, (∀ line, next.mHashTable.get line idx = group.mHashTable.get line idx) ∨
    ∀ line, next.mHashTable.get line idx = group.dHashTable.get line idx

namespace Advances

variable {group middle next : GroupInfo shape}

theorem refl (group : GroupInfo shape) : Advances group group :=
  ⟨rfl, rfl, rfl, fun _ => Or.inl (fun _ => rfl)⟩

theorem trans (first : Advances group middle) (second : Advances middle next) :
    Advances group next where
  config := second.config.trans first.config
  servers := second.servers.trans first.servers
  destination := second.destination.trans first.destination
  rows := by
    intro idx
    rcases second.rows idx with kept | arrived
    · rcases first.rows idx with before | earlier
      · exact Or.inl (fun line => (kept line).trans (before line))
      · exact Or.inr (fun line => (kept line).trans (earlier line))
    · right
      intro line
      rw [arrived line, first.destination]

theorem moveBucket (group : GroupInfo shape) (idx : shape.Bucket)
    (moving : CounterMap UInt64) : Advances group (group.moveBucket idx moving) := by
  refine ⟨rfl, rfl, rfl, fun bucket => ?_⟩
  by_cases here : bucket = idx
  · right
    intro line
    rw [here]
    exact (get_movedRow _ _ _ _ _).trans (if_pos rfl)
  · left
    intro line
    exact (get_movedRow _ _ _ _ _).trans (if_neg here)

theorem setMigratingHashtable {bucket : Nat} {id : UInt64}
    (result : group.setMigratingHashtable bucket id = .ok next) : Advances group next := by
  rcases setMigratingHashtable_ok result with rfl | ⟨idx, moving, -, -, -, -, rfl⟩
  · exact refl _
  · exact moveBucket group idx moving

theorem doProxyReport {id : UInt64} {vecBucketNo : List UInt32}
    (result : group.doProxyReport id vecBucketNo = .ok next) : Advances group next := by
  unfold GroupInfo.doProxyReport at result
  split_ifs at result with first
  · exact Scan.foldlM_ok (fun _ => Advances group) vecBucketNo
      { group with reportedServerid := group.reportedServerid.insert id }
      ⟨rfl, rfl, rfl, fun _ => Or.inl (fun _ => rfl)⟩
      (fun _ _ _ _ _ _ kept ran => kept.trans (setMigratingHashtable ran)) result
  · cases result
    exact refl _

theorem checkMigrateComplete {down : UInt64 → Bool} {done : Bool}
    (result : group.checkMigrateComplete down = .ok (done, next)) : Advances group next := by
  unfold GroupInfo.checkMigrateComplete at result
  split_ifs at result with idle busy lost wrong
  · cases result
    exact refl _
  · cases result
    exact refl _
  · cases result
    exact ⟨rfl, rfl, rfl, fun _ => Or.inl (fun _ => rfl)⟩
  · cases result
    exact ⟨rfl, rfl, rfl, fun _ => Or.inl (fun _ => rfl)⟩

theorem hardCheckMigrateComplete (group : GroupInfo shape) :
    Advances group group.hardCheckMigrateComplete := by
  unfold GroupInfo.hardCheckMigrateComplete
  split_ifs with same
  · exact ⟨rfl, rfl, rfl, fun _ => Or.inl (fun _ => rfl)⟩
  · exact refl _

end Advances

private theorem buildWith_tables {δ : Type} {group seen : GroupInfo shape}
    {builder : TableBuilder δ}
    {rebuildTable : TableBuilder δ → HashTable shape → Option (TableBuilder.Rebuilt shape δ)}
    {taken : Option (Rebuilding shape)}
    (result : group.buildWith builder rebuildTable = .ok (seen, taken)) :
    seen.config = group.config ∧ seen.mHashTable = group.mHashTable ∧
      seen.dHashTable = group.dHashTable := by
  cases taken with
  | some rebuilding =>
    rw [(buildWith_some result).1]
    exact ⟨rfl, rfl, rfl⟩
  | none =>
    unfold buildWith at result
    dsimp only at result
    split at result
    · cases result
      exact ⟨rfl, rfl, rfl⟩
    · split at result <;> cases result

theorem rebuildSnapshot_tables {group seen : GroupInfo shape} {fresh : Fresh} {up : UpnodeList}
    {taken : Option (Rebuilding shape)}
    (result : group.rebuildSnapshot fresh up = .ok (seen, taken)) :
    seen.config = group.config ∧ seen.mHashTable = group.mHashTable ∧
      seen.dHashTable = group.dHashTable := by
  unfold rebuildSnapshot at result
  dsimp only at result
  split_ifs at result with few first second
  · cases result
    exact ⟨rfl, rfl, rfl⟩
  · have tables := buildWith_tables result
    exact tables
  · have tables := buildWith_tables result
    exact tables
  · cases result
    exact ⟨rfl, rfl, rfl⟩

theorem firstRun_false {group : GroupInfo shape} {line : shape.Line} {idx : shape.Bucket}
    (used : group.mHashTable.get line idx ≠ 0) : group.firstRun = false := by
  apply List.all_eq_false.mpr
  refine ⟨group.mHashTable.get line idx, ?_, fun zero => used (of_decide_eq_true zero)⟩
  exact Vector.mem_toList_iff.mpr (Vector.getElem_mem _)

/-- The second part of `rebuild` writes a master that was in the row when the copy was
taken, and the master of that time if it is up. -/
theorem Taken.master {older group : GroupInfo shape} {up : UpnodeList}
    {rebuilding : Rebuilding shape} (taken : older.Taken up rebuilding)
    (config : group.config = older.config)
    (servers : group.availableServer = (older.withServers up).availableServer)
    (migrate : older.config.dataNeedMove = tairDataNeedMigrate) {idx : shape.Bucket}
    (here : ∃ line, older.mHashTable.get line idx ∈ up.serverIds) :
    ∃ line, (group.migratedFrom rebuilding).get shape.master idx = older.mHashTable.get line idx ∧
      (older.mHashTable.get shape.master idx ∈ up.serverIds → line = shape.master) := by
  obtain ⟨holder, held⟩ := here
  have again : older.firstRun = false := firstRun_false (up.real _ held)
  have migrating : group.config.dataNeedMove = tairDataNeedMigrate := by rw [config, migrate]
  by_cases several : shape.copyCount > 1
  · obtain ⟨row, promoted, swept⟩ := taken.quick ⟨migrate, several, again⟩ idx
    have kept := kept_of_promoted promoted (upAvailable_unset older.config up)
    rw [← swept] at kept
    rw [migratedFrom_quick migrating (taken.firstRun.trans again) several]
    have wrote : (writeHashTable rebuilding.quickTable).get shape.master idx =
        (rebuilding.quickTable.get shape.master idx).first := Grid.get_map _ _ _ _
    rw [wrote]
    by_cases alive : older.mHashTable.get shape.master idx ∈ up.serverIds
    · have same := kept.masterKept (upAvailable_iff.mpr ⟨alive, rfl⟩)
      exact ⟨shape.master, congrArg ServerIdType.first same, fun _ => rfl⟩
    · obtain ⟨line, same⟩ := kept.masterHeld
      exact ⟨line, (congrArg ServerIdType.first same).symm, fun wrong => absurd wrong alive⟩
  · have only : holder = shape.master := by
      apply Fin.ext
      have bound := holder.isLt
      change holder.val = 0
      omega
    rw [only] at held
    have copied := congrFun (taken.copied (fun needed => several needed.2.1) idx) shape.master
    have same : (rebuilding.quickTable.get shape.master idx).first =
        older.mHashTable.get shape.master idx := congrArg ServerIdType.first copied
    refine ⟨shape.master, ?_, fun _ => rfl⟩
    rw [migratedFrom_single migrating (taken.firstRun.trans again) (Nat.not_lt.mp several), same,
      servers, if_pos ((older.mem_withServers up _).mpr held)]

end GroupInfo

/-! ### Reports and the copy -/

/-- The config server with the rows that reports have brought to their destination
since the tables were last written. -/
structure Watched (shape : Shape) where
  conf : ConfState shape
  migrated : shape.Bucket → Option (shape.Line → UInt64)

namespace Watched

def start (group : GroupInfo shape) : Watched shape := ⟨⟨group, none⟩, fun _ => none⟩

/-- The rows a step from `state` to `next` adds or forgets. -/
def note (state : Watched shape) (next : ConfState shape) :
    ConfEvent shape → shape.Bucket → Option (shape.Line → UInt64)
  | .doFinishMigrate _ _ _ => fun idx =>
    if Differs state.conf.group.mHashTable next.group.mHashTable idx then
      some (fun line => next.group.mHashTable.get line idx)
    else state.migrated idx
  | .rebuildCommit =>
    match state.conf.rebuilding with
    | some rebuilding => if rebuilding.ret = .buildError then state.migrated else fun _ => none
    | none => state.migrated
  | _ => state.migrated

def step (state : Watched shape) (event : ConfEvent shape) : Except Fault (Watched shape) :=
  (fun next => ⟨next, state.note next event⟩) <$> state.conf.step event

/-- While a rebuild does not hold the lock, a report changes a bucket only when it
comes from a server that is up and stays the master of the bucket. -/
def Undisturbed (state : Watched shape) : ConfEvent shape → Prop
  | .doFinishMigrate serverId serverVersion bucketId =>
    state.conf.rebuilding.isSome = true →
      ∀ idx, state.conf.group.Accepts serverId serverVersion bucketId idx →
        state.conf.group.dHashTable.get shape.master idx = serverId ∧
          state.conf.group.availableServer.contains serverId = true
  | _ => True

instance (state : Watched shape) :
    ∀ event : ConfEvent shape, Decidable (state.Undisturbed event)
  | .doFinishMigrate _ _ _ => inferInstanceAs (Decidable (_ → _))
  | .rebuildSnapshot _ _ | .rebuildCommit | .doProxyReport _ _ | .checkMigrateComplete _
  | .hardCheckMigrateComplete | .incVersion _ => isTrue trivial

/-- What is known about the copy of a rebuild. It was taken from `older`, and a row
that a report has brought in since then had its master already. -/
structure CopyOf (older : GroupInfo shape) (up : UpnodeList) (group : GroupInfo shape)
    (rebuilding : Rebuilding shape) (migrated : shape.Bucket → Option (shape.Line → UInt64)) :
    Prop where
  taken : older.Taken up rebuilding
  advances : (older.withServers up).Advances group
  covered : ∀ idx row, migrated idx = some row →
    (∀ line, older.mHashTable.get line idx = row line) ∨
      (older.mHashTable.get shape.master idx = row shape.master ∧
        row shape.master ∈ up.serverIds)

structure Follows (group : GroupInfo shape) (copy : Option (Rebuilding shape))
    (migrated : shape.Bucket → Option (shape.Line → UInt64)) : Prop where
  arrived : ∀ idx row, migrated idx = some row →
    group.config.dataNeedMove = tairDataNeedMigrate ∧
      ∀ line, group.mHashTable.get line idx = row line ∧ group.dHashTable.get line idx = row line
  window : ∀ rebuilding, copy = some rebuilding →
    ∃ older up, CopyOf older up group rebuilding migrated

theorem follows_nothing (group : GroupInfo shape) : Follows group none (fun _ => none) where
  arrived := by
    intro idx row bad
    cases bad
  window := by
    intro rebuilding bad
    cases bad

namespace Follows

variable {group next : GroupInfo shape} {copy : Option (Rebuilding shape)}
  {migrated : shape.Bucket → Option (shape.Line → UInt64)}

theorem advance (follows : Follows group copy migrated) (advances : group.Advances next) :
    Follows next copy migrated where
  arrived := by
    intro idx row noted
    obtain ⟨migrate, rows⟩ := follows.arrived idx row noted
    refine ⟨by rw [advances.config, migrate], fun line => ⟨?_, ?_⟩⟩
    · rcases advances.rows idx with kept | arrived
      · exact (kept line).trans (rows line).1
      · exact (arrived line).trans (rows line).2
    · rw [advances.destination]
      exact (rows line).2
  window := by
    intro rebuilding isOpen
    obtain ⟨older, up, known⟩ := follows.window rebuilding isOpen
    exact ⟨older, up, known.taken, known.advances.trans advances, known.covered⟩

theorem close (follows : Follows group copy migrated) : Follows group none migrated :=
  ⟨follows.arrived, fun _ bad => by cases bad⟩

/-- A row that changes at a report is the one before in the copy of a rebuild. -/
private theorem covered_of_accepts {older : GroupInfo shape} {up : UpnodeList}
    {rebuilding : Rebuilding shape} (known : CopyOf older up group rebuilding migrated)
    {id : UInt64} {serverVersion : UInt32} {bucket : Int} {idx : shape.Bucket}
    (accepts : group.Accepts id serverVersion bucket idx)
    (stays : group.dHashTable.get shape.master idx = id)
    (alive : group.availableServer.contains id = true) :
    older.mHashTable.get shape.master idx = group.dHashTable.get shape.master idx ∧
      group.dHashTable.get shape.master idx ∈ up.serverIds := by
  obtain ⟨-, -, -, -, master, line, ne⟩ := accepts
  rw [stays]
  constructor
  · rcases known.advances.rows idx with same | arrived
    · exact (same shape.master).symm.trans master
    · exact absurd ((arrived line).trans (by rw [known.advances.destination])) ne
  · rw [known.advances.servers] at alive
    exact (older.mem_withServers up id).mp alive

theorem report (follows : Follows group copy migrated) {id : UInt64}
    {serverVersion : UInt32} {bucketId : Int} {idx : shape.Bucket} (moving : CounterMap UInt64)
    (accepts : group.Accepts id serverVersion bucketId idx)
    (undisturbed : copy.isSome = true → group.dHashTable.get shape.master idx = id ∧
      group.availableServer.contains id = true)
    {noting : shape.Bucket → Option (shape.Line → UInt64)}
    (here : noting idx = some (fun line => group.dHashTable.get line idx))
    (apart : ∀ bucket, bucket ≠ idx → noting bucket = migrated bucket) :
    Follows (group.moveBucket idx moving) copy noting := by
  have advances := GroupInfo.Advances.moveBucket group idx moving
  have kept := follows.advance advances
  constructor
  · intro bucket row noted
    by_cases same : bucket = idx
    · rw [same] at noted ⊢
      cases here.symm.trans noted
      refine ⟨accepts.1, fun line => ⟨?_, rfl⟩⟩
      exact (get_movedRow _ _ _ _ _).trans (if_pos rfl)
    · rw [apart bucket same] at noted
      exact kept.arrived bucket row noted
  · intro rebuilding isOpen
    obtain ⟨older, up, known⟩ := follows.window rebuilding isOpen
    refine ⟨older, up, known.taken, known.advances.trans advances, fun bucket row noted => ?_⟩
    by_cases same : bucket = idx
    · rw [same] at noted ⊢
      cases here.symm.trans noted
      rw [isOpen] at undisturbed
      obtain ⟨stays, alive⟩ := undisturbed rfl
      exact Or.inr (covered_of_accepts known accepts stays alive)
    · rw [apart bucket same] at noted
      exact known.covered bucket row noted

theorem snapshot (follows : Follows group none migrated) {fresh : Fresh} {up : UpnodeList}
    {taken : Option (Rebuilding shape)}
    (result : group.rebuildSnapshot fresh up = .ok (next, taken)) :
    Follows next taken migrated := by
  obtain ⟨config, m, d⟩ := GroupInfo.rebuildSnapshot_tables result
  constructor
  · intro idx row noted
    rw [config, m, d]
    exact follows.arrived idx row noted
  · intro rebuilding isOpen
    rw [isOpen] at result
    obtain ⟨rfl, known⟩ := GroupInfo.rebuildSnapshot_some result
    refine ⟨group, up, known, GroupInfo.Advances.refl _, fun idx row noted => Or.inl ?_⟩
    exact fun line => ((follows.arrived idx row noted).2 line).1

end Follows

private theorem note_moveBucket (state : Watched shape) (id : UInt64)
    (serverVersion : UInt32) (bucketId : Int) {idx : shape.Bucket} (moving : CounterMap UInt64)
    (ne : Differs state.conf.group.mHashTable state.conf.group.dHashTable idx)
    (bucket : shape.Bucket) :
    state.note ⟨state.conf.group.moveBucket idx moving, state.conf.rebuilding⟩
        (.doFinishMigrate id serverVersion bucketId) bucket =
      if bucket = idx then some (fun line => state.conf.group.dHashTable.get line idx)
      else state.migrated bucket := by
  have row : ∀ line, (state.conf.group.moveBucket idx moving).mHashTable.get line bucket =
      if bucket = idx then state.conf.group.dHashTable.get line idx
      else state.conf.group.mHashTable.get line bucket :=
    fun line => get_movedRow _ _ _ _ _
  unfold note Differs
  simp only [row]
  by_cases here : bucket = idx
  · obtain ⟨line, different⟩ := ne
    rw [if_pos ⟨line, by rw [if_pos here, here]; exact different⟩]
    simp [here]
  · simp [here]

theorem Follows.step {state next : Watched shape} {event : ConfEvent shape}
    (follows : Follows state.conf.group state.conf.rebuilding state.migrated)
    (undisturbed : state.Undisturbed event) (ran : state.step event = .ok next) :
    Follows next.conf.group next.conf.rebuilding next.migrated := by
  obtain ⟨conf, moved, rfl⟩ := ok_of_map ran
  obtain ⟨⟨group, copy⟩, migrated⟩ := state
  cases event with
  | rebuildSnapshot fresh up =>
    cases copy with
    | some rebuilding =>
      cases moved
      exact follows
    | none =>
      obtain ⟨⟨seen, taken⟩, snapshot, rfl⟩ := ok_of_map moved
      exact follows.snapshot snapshot
  | rebuildCommit =>
    cases copy with
    | none =>
      cases moved
      exact follows
    | some rebuilding =>
      cases moved
      change Follows _ none (if rebuilding.ret = .buildError then migrated else fun _ => none)
      by_cases failed : rebuilding.ret = .buildError
      · rw [if_pos failed]
        refine (follows.advance ?_).close
        unfold GroupInfo.rebuildCommit
        rw [if_pos failed]
        exact ⟨rfl, rfl, rfl, fun _ => Or.inl (fun _ => rfl)⟩
      · rw [if_neg failed]
        exact follows_nothing _
  | doFinishMigrate id serverVersion bucketId =>
    obtain ⟨⟨accepted, reported⟩, report, rfl⟩ := ok_of_map moved
    rcases GroupInfo.doFinishMigrate_ok report with
      rfl | ⟨idx, moving, -, accepts, rfl⟩
    · have unchanged : note ⟨⟨reported, copy⟩, migrated⟩ ⟨reported, copy⟩
          (.doFinishMigrate id serverVersion bucketId) = migrated := by
        funext idx
        exact if_neg (fun ⟨_, ne⟩ => ne rfl)
      dsimp only
      rw [unchanged]
      exact follows
    · have noted := note_moveBucket ⟨⟨group, copy⟩, migrated⟩ id serverVersion bucketId
        moving accepts.2.2.2.2.2
      refine follows.report moving accepts (fun isOpen => undisturbed isOpen idx accepts)
        ((noted idx).trans (if_pos rfl)) (fun bucket other => (noted bucket).trans (if_neg other))
  | doProxyReport id vecBucketNo =>
    obtain ⟨reported, report, rfl⟩ := ok_of_map moved
    exact follows.advance (.doProxyReport report)
  | checkMigrateComplete down =>
    obtain ⟨⟨done, reached⟩, checked, rfl⟩ := ok_of_map moved
    exact follows.advance (.checkMigrateComplete checked)
  | hardCheckMigrateComplete =>
    cases moved
    exact follows.advance (.hardCheckMigrateComplete _)
  | incVersion incStep =>
    cases moved
    exact follows.advance ⟨rfl, rfl, rfl, fun _ => Or.inl (fun _ => rfl)⟩

/-- A rebuild keeps what the reports have brought in, when none of them is accepted in
its open window that gives the bucket to another master: the bucket then has a master
from its row, and the master of its row if that one is up. -/
theorem rebuild_keeps_reports {group : GroupInfo shape} {state : Watched shape}
    (reached : Reached step Undisturbed (start group) state) {rebuilding : Rebuilding shape}
    (isOpen : state.conf.rebuilding = some rebuilding) (built : rebuilding.ret ≠ .buildError)
    {idx : shape.Bucket} {row : shape.Line → UInt64} (migrated : state.migrated idx = some row)
    (present : ∃ line, state.conf.group.availableServer.contains (row line) = true) :
    ∃ line,
      (state.conf.group.rebuildCommit rebuilding).hashTable.get shape.master idx = row line ∧
      (state.conf.group.rebuildCommit rebuilding).mHashTable.get shape.master idx = row line ∧
      (state.conf.group.availableServer.contains (row shape.master) = true →
        line = shape.master) := by
  have follows := reached.invariant
    (fun state => Follows state.conf.group state.conf.rebuilding state.migrated)
    (follows_nothing group) (fun follows allowed stepped => follows.step allowed stepped)
  obtain ⟨older, up, known⟩ := follows.window rebuilding isOpen
  obtain ⟨hashTable, mHashTable, -⟩ := state.conf.group.rebuildCommit_tables built
  rw [hashTable, mHashTable]
  have migrate : older.config.dataNeedMove = tairDataNeedMigrate :=
    (congrArg GroupConfig.dataNeedMove known.advances.config).symm.trans
      (follows.arrived idx row migrated).1
  have alive : ∀ serverId, state.conf.group.availableServer.contains serverId = true ↔
      serverId ∈ up.serverIds := by
    intro serverId
    rw [known.advances.servers]
    exact older.mem_withServers up serverId
  have covered := known.covered idx row migrated
  have held : ∃ line, older.mHashTable.get line idx ∈ up.serverIds := by
    rcases covered with same | ⟨same, up⟩
    · obtain ⟨holder, contained⟩ := present
      rw [alive, ← same holder] at contained
      exact ⟨holder, contained⟩
    · exact ⟨shape.master, same ▸ up⟩
  obtain ⟨line, written, first⟩ :=
    known.taken.master known.advances.config known.advances.servers migrate held
  rcases covered with same | ⟨same, up⟩
  · rw [same line] at written
    refine ⟨line, written, written, fun master => first ?_⟩
    rw [same]
    exact (alive _).mp master
  · rw [first (same ▸ up), same] at written
    exact ⟨shape.master, written, written, fun _ => rfl⟩

def loneShape : Shape := ⟨2, 1, Nat.two_pos, Nat.one_pos⟩

def loneGroup : GroupInfo loneShape := .atRest 1 fun _ _ => 1

def loneFresh : Fresh :=
  ⟨0, TableBuilder1.unsetLimits, ⟨false, .finite 0, 0, 0, 0, 0, 0, 0⟩⟩

def loneMigrates : List (ConfEvent loneShape) :=
  [.rebuildSnapshot loneFresh ⟨[1, 2], by simp [invalidFlag]⟩, .rebuildCommit]

theorem loneGrows_real : ∀ id ∈ ([1, 2, 3] : List UInt64), id ≠ invalidFlag := by
  simp [invalidFlag]

def loneGrows : ConfEvent loneShape :=
  .rebuildSnapshot loneFresh ⟨[1, 2, 3], loneGrows_real⟩

/-- The report comes before the copy is taken. -/
theorem rebuild_keeps_reports_lone :
    ∃ state rebuilding row,
      guardedRun step Undisturbed (loneMigrates ++ [.doFinishMigrate 1 12 0, loneGrows])
        (start loneGroup) = some state ∧
      state.conf.rebuilding = some rebuilding ∧ rebuilding.ret ≠ .buildError ∧
      state.migrated ⟨0, by decide⟩ = some row ∧
      ∃ line,
        (state.conf.group.rebuildCommit rebuilding).hashTable.get loneShape.master
          ⟨0, by decide⟩ = row line ∧
        (state.conf.group.rebuildCommit rebuilding).mHashTable.get loneShape.master
          ⟨0, by decide⟩ = row line ∧
        (state.conf.group.availableServer.contains (row loneShape.master) = true →
          line = loneShape.master) := by
  cases run : guardedRun step Undisturbed (loneMigrates ++ [.doFinishMigrate 1 12 0, loneGrows])
      (start loneGroup) with
  | none => cases run
  | some state =>
    cases isOpen : state.conf.rebuilding with
    | none =>
      cases run
      cases isOpen
    | some rebuilding =>
      cases noted : state.migrated ⟨0, by decide⟩ with
      | none =>
        cases run
        cases noted
      | some row =>
        have built : rebuilding.ret ≠ .buildError := by
          cases run
          cases isOpen
          decide +kernel
        refine ⟨state, rebuilding, row, rfl, isOpen, built, noted, ?_⟩
        refine rebuild_keeps_reports (.of_guardedRun _ .start run) isOpen built noted ?_
        cases run
        cases noted
        decide +kernel

/-- The report comes while the copy is out. It is accepted and moves bucket 0 to
server 2, which is up, and the rebuild gives the bucket back to server 1. -/
theorem rebuild_loses_report :
    ∃ state rebuilding, Reached step (fun _ _ => True) (start loneGroup) state ∧
      state.conf.rebuilding = some rebuilding ∧ rebuilding.ret ≠ .buildError ∧
      state.migrated ⟨0, by decide⟩ = some (fun _ => 2) ∧
      state.conf.group.availableServer.contains 2 = true ∧
      (state.conf.group.rebuildCommit rebuilding).hashTable.get loneShape.master
        ⟨0, by decide⟩ = 1 ∧
      (state.conf.group.rebuildCommit rebuilding).mHashTable.get loneShape.master
        ⟨0, by decide⟩ = 1 := by
  cases run : guardedRun step (fun _ _ => True)
      (loneMigrates ++ [loneGrows, .doFinishMigrate 1 12 0]) (start loneGroup) with
  | none => cases run
  | some state =>
    cases isOpen : state.conf.rebuilding with
    | none =>
      cases run
      cases isOpen
    | some rebuilding =>
      refine ⟨state, rebuilding, .of_guardedRun _ .start run, isOpen, ?_⟩
      cases run
      cases isOpen
      decide +kernel

end Watched

/-! ### Between two rebuilds -/

/-- No rebuild, and no report with the number of buckets itself, which is outside the tables. -/
def ConfEvent.inWindow : ConfEvent shape → Bool
  | .rebuildSnapshot .. | .rebuildCommit => false
  | .doFinishMigrate _ _ bucketId => (bucketId % 2 ^ 64).toNat ≠ shape.bucketCount
  | .doProxyReport _ vecBucketNo => vecBucketNo.all fun bucket => bucket.toNat ≠ shape.bucketCount
  | _ => true

/-- Until the next rebuild a bucket has the row it had or the one it is to get. -/
theorem rows_only_arrive {start state : ConfState shape}
    (reached : Reached ConfState.step (fun _ event => event.inWindow = true) start state) :
    start.group.Advances state.group := by
  apply reached.invariant (fun state => start.group.Advances state.group) (.refl _)
  intro state next event advances quiet ran
  refine advances.trans ?_
  cases event with
  | rebuildSnapshot fresh up => cases quiet
  | rebuildCommit => cases quiet
  | doFinishMigrate serverId serverVersion bucketId =>
    obtain ⟨⟨accepted, group⟩, finished, rfl⟩ := ok_of_map ran
    rcases GroupInfo.doFinishMigrate_ok finished with rfl | ⟨idx, moving, -, -, rfl⟩
    · exact .refl _
    · exact .moveBucket _ idx moving
  | doProxyReport serverId vecBucketNo =>
    obtain ⟨group, reported, rfl⟩ := ok_of_map ran
    exact .doProxyReport reported
  | checkMigrateComplete down =>
    obtain ⟨⟨done, group⟩, checked, rfl⟩ := ok_of_map ran
    exact .checkMigrateComplete checked
  | hardCheckMigrateComplete =>
    cases ran
    exact .hardCheckMigrateComplete _
  | incVersion incStep =>
    cases ran
    exact ⟨rfl, rfl, rfl, fun _ => .inl fun _ => rfl⟩

theorem rows_only_arrive_lone : ∃ start state : ConfState Watched.loneShape,
    state.group.mHashTable ≠ start.group.mHashTable ∧ start.group.Advances state.group := by
  have ran : ∃ start, guardedRun ConfState.step (fun _ _ => True) Watched.loneMigrates
      ⟨Watched.loneGroup, none⟩ = some start ∧ ∃ state, guardedRun ConfState.step
        (fun _ event => event.inWindow = true) [.doFinishMigrate 1 12 0] start = some state ∧
      state.group.mHashTable ≠ start.group.mHashTable := by decide +kernel
  obtain ⟨start, -, state, run, moved⟩ := ran
  exact ⟨start, state, moved, rows_only_arrive (.of_guardedRun _ .start run)⟩

end Tair.ConfigServer
