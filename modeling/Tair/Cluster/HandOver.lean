/-
Buckets that were handed over. A data server marks a bucket once its report is accepted, and sends
the requests for it to the new master. But the marks go with the next table: they last while a
server that has marked buckets takes no table, or only one whose list has all of them.
-/

import Tair.Cluster.Network
import Tair.DataServer.ServerSteps

namespace Tair

open Std Tair.Library Tair.ConfigServer Tair.DataServer

variable {shape : Shape}

/-! ### Sizes -/

def Sized (shape : Shape) (resp : ResponseHeartbeat) : Prop :=
  ∀ table, resp.serverList = some table → resp.bucketCount = shape.bucketCount

namespace ConfigServer.ServerConf

variable {server next : ServerConf shape} {req : RequestHeartbeat} {resp : ResponseHeartbeat}

private theorem answer_sized (answered : server.answer req = .ok (next, resp)) :
    Sized shape resp := by
  unfold answer at answered
  by_cases ended : server.conf.group.groupCanWork = false
  · rw [if_pos ended] at answered
    cases answered
    intro table bad
    cases bad
  · rw [if_neg ended] at answered
    obtain ⟨⟨group, compared⟩, compares, same⟩ := ok_of_map answered
    cases same
    unfold compareVersions at compares
    split_ifs at compares with other
    · cases compares
      exact fun _ _ => rfl
    · obtain ⟨reported, -, same⟩ := ok_of_map compares
      cases same
      intro table bad
      cases bad

theorem doHeartbeatPacket_sized (answered : server.doHeartbeatPacket req = .ok (next, resp)) :
    Sized shape resp := by
  have bare : ∀ {other : ResponseHeartbeat}, other.serverList = none → Sized shape other :=
    fun none table some => absurd (none.symm.trans some) (by simp)
  unfold doHeartbeatPacket at answered
  split at answered
  · cases answered
    exact bare rfl
  · exact answer_sized answered
  · cases answered
    exact bare rfl
  · split_ifs at answered
    · cases answered
      exact bare rfl
    · exact answer_sized answered
    · cases answered
      exact bare rfl

end ConfigServer.ServerConf

/-! ### One data server -/

/-- A data server with the buckets it has marked. As long as it works, the requests
for these are for other servers. -/
structure Steady (shape : Shape) (handedOver : List (UInt64 × Nat)) (serverId : UInt64)
    (server : TairManager) : Prop where
  clustered : server.localmode = false
  table : ∀ held, server.tableMgr.serverTable = some held →
    server.tableMgr.bucketCount = shape.bucketCount
  updaters : ∀ update ∈ server.updaters, update.bucketCount = shape.bucketCount
  redirects : ∀ bucket, (serverId, bucket) ∈ handedOver → server.status = .canWork →
    server.Redirects serverId bucket

namespace Steady

variable {handedOver : List (UInt64 × Nat)} {serverId : UInt64} {server next : TairManager}

theorem started : Steady shape handedOver serverId .started where
  clustered := rfl
  table := by
    intro held bad
    cases bad
  updaters := by
    intro update bad
    exact absurd bad List.not_mem_nil
  redirects := by
    intro bucket member working
    cases working

section

variable (steady : Steady shape handedOver serverId server)

include steady

theorem alike (clustered : next.localmode = server.localmode)
    (table : TableManager.SameTable server.tableMgr next.tableMgr)
    (marks : next.migrateDoneSet = server.migrateDoneSet)
    (updaters : ∀ update ∈ next.updaters, update.bucketCount = shape.bucketCount)
    (status : next.status = .canWork → server.status = .canWork) :
    Steady shape handedOver serverId next where
  clustered := clustered.trans steady.clustered
  table := by
    intro held same
    rw [table.buckets]
    exact steady.table held (table.serverTable.symm.trans same)
  updaters := updaters
  redirects := by
    intro bucket member working
    obtain ⟨marked, target⟩ := steady.redirects bucket member (status working)
    refine ⟨marks ▸ marked, ?_⟩
    unfold TableManager.getMigrateTarget TableManager.getServerTable
      TableManager.hashTableSize at target ⊢
    rw [table.serverTable, table.copies, table.buckets]
    exact target

theorem handlePacket {resp : ResponseHeartbeat} (sized : Sized shape resp) :
    Steady shape handedOver serverId (server.handlePacket resp) := by
  unfold TairManager.handlePacket
  rw [if_neg (by rw [steady.clustered]; decide)]
  split_ifs with solitary newer
  · unfold TairManager.setSolitary
    split_ifs with working
    · exact steady.alike rfl ⟨rfl, rfl, rfl⟩ rfl steady.updaters (fun wrong => by cases wrong)
    · exact steady.alike rfl ⟨rfl, rfl, rfl⟩ rfl steady.updaters id
  · cases given : resp.serverList with
    | none => exact steady.alike rfl ⟨rfl, rfl, rfl⟩ rfl steady.updaters id
    | some held =>
      refine steady.alike rfl ⟨rfl, rfl, rfl⟩ rfl (fun update member => ?_) id
      rcases List.mem_append.mp member with prior | last
      · exact steady.updaters update prior
      · rw [List.mem_singleton.mp last]
        exact sized held given
  · exact steady

theorem updateServerTable {update : TableUpdate} (own : update ∈ server.updaters)
    (careful : ∀ bucket, (serverId, bucket) ∈ handedOver →
      server.status ≠ .canWork ∧ update.HandsOver serverId bucket)
    (updated : server.updateServerTable serverId update = .ok next) (thread : Nat) :
    Steady shape handedOver serverId
      { next with updaters := next.updaters.eraseIdx thread } := by
  have marks : ∀ bucket, (serverId, bucket) ∈ handedOver → next.Redirects serverId bucket :=
    fun bucket member => (careful bucket member).2.redirects (careful bucket member).1 updated
  obtain ⟨tableMgr, done, table, -, rfl⟩ := TairManager.updateServerTable_ok updated
  refine ⟨steady.clustered, fun _ _ => ?_, fun other member => ?_, fun bucket member _ => ?_⟩
  · exact table.buckets.trans (steady.updaters update own)
  · exact steady.updaters other (List.mem_of_mem_eraseIdx member)
  · exact ⟨(marks bucket member).marked, (marks bucket member).target⟩

theorem startMigration : Steady shape handedOver serverId server.startMigration := by
  unfold TairManager.startMigration
  dsimp only
  split_ifs with nothing
  · exact steady.alike rfl ⟨rfl, rfl, rfl⟩ rfl steady.updaters id
  · exact steady.alike rfl ⟨rfl, rfl, rfl⟩ rfl steady.updaters id

theorem doRun : Steady shape handedOver serverId server.doRun := by
  unfold TairManager.doRun
  split_ifs with idle
  · exact steady.alike rfl ⟨rfl, rfl, rfl⟩ rfl steady.updaters id
  · exact steady

theorem finishMigrateBucket {bucket : Nat} (sent : server.finishMigrateBucket bucket = some next) :
    Steady shape handedOver serverId next := by
  unfold TairManager.finishMigrateBucket at sent
  split_ifs at sent with ready
  cases sent
  exact steady.alike rfl ⟨rfl, rfl, rfl⟩ rfl steady.updaters id

theorem refused {bucket : Nat} (gave : server.finishReturned bucket false = .ok next) :
    Steady shape handedOver serverId next := by
  cases gave
  exact steady.alike rfl ⟨rfl, rfl, rfl⟩ rfl steady.updaters id

theorem accepted {bucket : Nat}
    (target : OtherServer serverId (server.tableMgr.getMigrateTarget bucket).toOption)
    (gave : server.finishReturned bucket true = .ok next) :
    Steady shape ((serverId, bucket) :: handedOver) serverId next := by
  obtain ⟨done, marks, rfl⟩ := ok_of_map gave
  refine ⟨steady.clustered, steady.table, steady.updaters, fun other member working => ?_⟩
  rcases List.mem_cons.mp member with same | earlier
  · cases same
    exact ⟨DoneSet.mark_self marks, target⟩
  · obtain ⟨marked, target⟩ := steady.redirects other earlier working
    exact ⟨DoneSet.mark_keeps marks marked, target⟩

theorem fewer {fewer : List (UInt64 × Nat)}
    (subset : ∀ bucket, (serverId, bucket) ∈ fewer → (serverId, bucket) ∈ handedOver) :
    Steady shape fewer serverId server :=
  ⟨steady.clustered, steady.table, steady.updaters,
    fun bucket member => steady.redirects bucket (subset bucket member)⟩

end

end Steady

/-! ### The cluster -/

namespace Cluster

variable (cluster : Cluster shape)

/-- An answer lets a server mark a bucket only when it has another server for it. -/
def MarksOther : Option Packet → Prop
  | some (.responseReturn serverId bucketNo true) =>
    (cluster.servers serverId).migrateMgr.waiting = some bucketNo →
      OtherServer serverId
        ((cluster.servers serverId).tableMgr.getMigrateTarget bucketNo).toOption
  | _ => True

instance (cluster : Cluster shape) (packet : Option Packet) : Decidable (cluster.MarksOther packet) :=
  match packet with
  | some (.responseReturn serverId bucketNo true) =>
    inferInstanceAs (Decidable ((cluster.servers serverId).migrateMgr.waiting = some bucketNo →
      OtherServer serverId
        ((cluster.servers serverId).tableMgr.getMigrateTarget bucketNo).toOption))
  | some (.responseReturn _ _ false) | some (.requestHeartbeat _)
  | some (.responseHeartbeat _ _) | some (.requestMigrateFinish _ _ _) | none => isTrue trivial

/-- A server that has marked buckets takes a table only while it does not work, and only
one that hands these buckets to other servers again, with a list that says so. -/
def TakesMarks (serverId : UInt64) : Option TableUpdate → Prop
  | some update => ∀ marked ∈ cluster.handedOver, marked.1 = serverId →
      (cluster.servers serverId).status ≠ .canWork ∧ update.HandsOver serverId marked.2
  | none => True

instance (cluster : Cluster shape) (serverId : UInt64) :
    ∀ update : Option TableUpdate, Decidable (cluster.TakesMarks serverId update)
  | some _ => inferInstanceAs (Decidable (∀ _ ∈ _, _))
  | none => isTrue trivial

def Careful : Event → Prop
  | .deliver place => cluster.MarksOther cluster.packets[place]?
  | .updateServerTable serverId thread =>
    cluster.TakesMarks serverId (cluster.servers serverId).updaters[thread]?
  | _ => True

instance (cluster : Cluster shape) : ∀ event : Event, Decidable (cluster.Careful event)
  | .deliver place => inferInstanceAs (Decidable (cluster.MarksOther cluster.packets[place]?))
  | .updateServerTable serverId _ => inferInstanceAs (Decidable (cluster.TakesMarks serverId _))
  | .rebuildSnapshot _ _ | .rebuildCommit | .checkMigrateComplete _ | .hardCheckMigrateComplete
  | .incVersion _ | .setStatus _ _ | .drop _ | .sendHeartbeat _ | .startMigration _ | .doRun _
  | .finishMigrateBucket _ _ | .restart _ => isTrue trivial

structure Steadily (cluster : Cluster shape) : Prop where
  servers : ∀ serverId,
    Steady shape cluster.handedOver serverId (cluster.servers serverId)
  packets : ∀ serverId resp, .responseHeartbeat serverId resp ∈ cluster.packets →
    Sized shape resp

namespace Steadily

variable {cluster next : Cluster shape}

section

variable (steadily : Steadily cluster)

include steadily

theorem withServer {serverId : UInt64} {server : TairManager}
    (steady : Steady shape cluster.handedOver serverId server) :
    Steadily (cluster.withServer serverId server) where
  servers := by
    intro other
    change Steady shape cluster.handedOver other
      (Function.update cluster.servers serverId server other)
    by_cases same : other = serverId
    · subst same
      rw [Function.update_self]
      exact steady
    · rw [Function.update_of_ne same]
      exact steadily.servers other
  packets := steadily.packets

theorem send {packet : Packet}
    (sized : ∀ serverId resp, packet = .responseHeartbeat serverId resp → Sized shape resp) :
    Steadily (cluster.send packet) where
  servers := steadily.servers
  packets := by
    intro serverId resp member
    rcases List.mem_append.mp member with prior | last
    · exact steadily.packets serverId resp prior
    · exact sized serverId resp (List.mem_singleton.mp last).symm

theorem confServer (confServer : ServerConf shape) :
    Steadily { cluster with confServer := confServer } :=
  ⟨steadily.servers, steadily.packets⟩

theorem confStep {event : ConfEvent shape} (ran : cluster.confStep event = .ok next) :
    Steadily next := by
  obtain ⟨conf, -, rfl⟩ := ok_of_map ran
  exact steadily.confServer _

theorem erase (place : Nat) : Steadily { cluster with packets := cluster.packets.eraseIdx place } :=
  ⟨steadily.servers,
    fun serverId resp member => steadily.packets serverId resp (List.mem_of_mem_eraseIdx member)⟩

theorem noteDone {serverId : UInt64} {bucketNo : Nat} {server : TairManager}
    (target : OtherServer serverId
      ((cluster.servers serverId).tableMgr.getMigrateTarget bucketNo).toOption)
    (gave : (cluster.servers serverId).finishReturned bucketNo true = .ok server) :
    Steadily ((cluster.noteDone serverId bucketNo).withServer serverId server) := by
  have marked := (steadily.servers serverId).accepted target gave
  unfold Cluster.noteDone
  split_ifs with working
  · refine ⟨fun other => ?_, steadily.packets⟩
    change Steady shape ((serverId, bucketNo) :: cluster.handedOver) other
      (Function.update cluster.servers serverId server other)
    by_cases same : other = serverId
    · subst same
      rw [Function.update_self]
      exact marked
    · rw [Function.update_of_ne same]
      refine (steadily.servers other).fewer (fun bucket member => ?_)
      rcases List.mem_cons.mp member with wrong | earlier
      · exact absurd (congrArg Prod.fst wrong) same
      · exact earlier
  · exact steadily.withServer (marked.fewer (fun _ => List.mem_cons_of_mem _))

theorem receive {packet : Packet}
    (sized : ∀ serverId resp, packet = .responseHeartbeat serverId resp → Sized shape resp)
    (careful : ∀ serverId bucketNo, packet = .responseReturn serverId bucketNo true →
      (cluster.servers serverId).migrateMgr.waiting = some bucketNo →
      OtherServer serverId
        ((cluster.servers serverId).tableMgr.getMigrateTarget bucketNo).toOption)
    (received : cluster.receive packet = .ok next) : Steadily next := by
  cases packet with
  | requestHeartbeat req =>
    obtain ⟨⟨confServer, resp⟩, answered, rfl⟩ := ok_of_map received
    refine (steadily.confServer confServer).send (fun serverId other same => ?_)
    cases same
    exact ConfigServer.ServerConf.doHeartbeatPacket_sized answered
  | responseHeartbeat serverId resp =>
    cases received
    exact steadily.withServer
      ((steadily.servers serverId).handlePacket (sized serverId resp rfl))
  | requestMigrateFinish serverId version bucketNo =>
    obtain ⟨⟨confServer, accepted⟩, answered, rfl⟩ := ok_of_map received
    refine (steadily.confServer confServer).send (fun serverId other same => ?_)
    cases same
  | responseReturn serverId bucketNo accepted =>
    unfold Cluster.receive at received
    dsimp only at received
    by_cases waited : (cluster.servers serverId).migrateMgr.waiting = some bucketNo
    · rw [if_pos waited] at received
      obtain ⟨server, gave, rfl⟩ := ok_of_map received
      cases accepted with
      | true => exact steadily.noteDone (careful serverId bucketNo rfl waited) gave
      | false => exact steadily.withServer ((steadily.servers serverId).refused gave)
    · rw [if_neg waited] at received
      cases received
      exact steadily

theorem step {event : Event} (careful : cluster.Careful event)
    (ran : cluster.step event = .ok next) : Steadily next := by
  cases event with
  | rebuildSnapshot fresh up => exact steadily.confStep ran
  | rebuildCommit => exact steadily.confStep ran
  | checkMigrateComplete down => exact steadily.confStep ran
  | hardCheckMigrateComplete => exact steadily.confStep ran
  | incVersion incStep => exact steadily.confStep ran
  | setStatus serverId status =>
    cases ran
    exact steadily.confServer _
  | deliver place =>
    unfold Cluster.step at ran
    change cluster.MarksOther cluster.packets[place]? at careful
    dsimp only at ran
    split at ran
    next found =>
      rw [found] at careful
      refine (steadily.erase place).receive (fun serverId resp same => ?_)
        (fun serverId bucketNo same => ?_) ran
      · rw [same] at found
        exact steadily.packets serverId resp (List.mem_of_getElem? found)
      · rw [same] at careful
        exact careful
    · cases ran
      exact steadily
  | drop place =>
    cases ran
    exact steadily.erase place
  | sendHeartbeat serverId =>
    cases ran
    refine steadily.send (fun serverId other same => ?_)
    cases same
  | updateServerTable serverId thread =>
    unfold Cluster.step at ran
    change cluster.TakesMarks serverId (cluster.servers serverId).updaters[thread]? at careful
    dsimp only at ran
    split at ran
    next found =>
      rw [found] at careful
      split_ifs at ran with busy
      · cases ran
        exact steadily
      · obtain ⟨server, updated, rfl⟩ := ok_of_map ran
        exact steadily.withServer ((steadily.servers serverId).updateServerTable
          (List.mem_of_getElem? found)
          (fun bucket member => careful (serverId, bucket) member rfl) updated thread)
    · cases ran
      exact steadily
  | startMigration serverId =>
    unfold Cluster.step at ran
    dsimp only at ran
    split_ifs at ran with busy
    · cases ran
      exact steadily.withServer (steadily.servers serverId).startMigration
    · cases ran
      exact steadily
  | doRun serverId =>
    cases ran
    exact steadily.withServer (steadily.servers serverId).doRun
  | finishMigrateBucket serverId bucket =>
    unfold Cluster.step at ran
    dsimp only at ran
    split at ran
    next found =>
      cases ran
      refine (steadily.withServer ((steadily.servers serverId).finishMigrateBucket found)).send
        (fun serverId other same => ?_)
      cases same
    · cases ran
      exact steadily
  | restart serverId =>
    cases ran
    exact steadily.withServer .started

end

end Steadily

theorem steadily_start (group : GroupInfo shape) (acceptStrategy : Int)
    (dataServerInfo : UInt64 → Option ServerStatus) :
    Steadily (start group acceptStrategy dataServerInfo) :=
  ⟨fun _ => .started, fun _ _ bad => absurd bad List.not_mem_nil⟩

/-- In every careful run a bucket that a server has marked is not served by it again,
whatever the tables of the config server say: a request that asks, with the hash of its
key, is refused or sent to the other server. -/
theorem handed_over_stays {group : GroupInfo shape} {acceptStrategy : Int}
    {dataServerInfo : UInt64 → Option ServerStatus} {cluster : Cluster shape}
    (reached : Reached step Careful (start group acceptStrategy dataServerInfo) cluster)
    {serverId : UInt64} (idx : shape.Bucket) (marked : (serverId, idx.val) ∈ cluster.handedOver)
    {req : Request} (own : req.keyHash.toNat % shape.bucketCount = idx.val)
    (asks : req.asks = true) (honest : req.hashCode = req.keyHash.toNat) :
    (cluster.servers serverId).process serverId req = .ok .serverCanNotWork ∨
      (cluster.servers serverId).process serverId req = .ok .shouldProxy := by
  have steadily := reached.invariant Steadily (steadily_start group acceptStrategy dataServerInfo)
    (fun steadily careful stepped => steadily.step careful stepped)
  have steady := steadily.servers serverId
  by_cases working : (cluster.servers serverId).isWorking = true
  · right
    have redirects := steady.redirects idx.val marked (of_decide_eq_true working)
    obtain ⟨held, table⟩ := redirects.table
    have sized : req.keyHash.toNat % (cluster.servers serverId).tableMgr.bucketCount = idx.val := by
      rw [steady.table held table]
      exact own
    exact redirects.process working steady.clustered asks honest sized
  · left
    unfold TairManager.process
    rw [if_pos (Bool.eq_false_iff.mpr working)]

/-! ### Two servers -/

def pairShape : Shape := ⟨2, 1, Nat.two_pos, Nat.one_pos⟩

def oldMaster : UInt64 := 0x14470100000a

def newMaster : UInt64 := 0x14470200000a

def pairGroup : GroupInfo pairShape := .atRest 1 fun _ _ => oldMaster

def pairStart : Cluster pairShape := start pairGroup groupDefaultAcceptStrategy (fun _ => some .alive)

def takesTable : List Event :=
  [.sendHeartbeat oldMaster, .deliver 0, .deliver 0, .updateServerTable oldMaster 0,
    .startMigration oldMaster]

def handsOver : List Event :=
  takesTable ++
    [.rebuildSnapshot ⟨0, TableBuilder1.unsetLimits, ⟨false, .finite 0, 0, 0, 0, 0, 0, 0⟩⟩
      ⟨[oldMaster, newMaster], by simp [oldMaster, newMaster, invalidFlag]⟩, .rebuildCommit] ++
    takesTable ++
    [.doRun oldMaster, .finishMigrateBucket oldMaster 0, .deliver 0, .deliver 0]

def comesBack : List Event :=
  handsOver ++
    [.setStatus oldMaster (some .forceDown), .sendHeartbeat oldMaster, .deliver 0, .deliver 0,
      .setStatus oldMaster (some .alive)] ++ takesTable

def putRequest : Request := ⟨.put, 0, 0⟩

theorem handed_over_stays_comesBack :
    ∃ cluster, guardedRun step Careful comesBack pairStart = some cluster ∧
      (oldMaster, 0) ∈ cluster.handedOver ∧
      (cluster.servers oldMaster).isWorking = true ∧
      cluster.confServer.conf.group.mHashTable.get pairShape.master ⟨0, by decide⟩ = newMaster ∧
      ((cluster.servers oldMaster).process oldMaster putRequest = .ok .serverCanNotWork ∨
        (cluster.servers oldMaster).process oldMaster putRequest = .ok .shouldProxy) := by
  obtain ⟨cluster, run, marked, working, moved⟩ :
      ∃ cluster, guardedRun step Careful comesBack pairStart = some cluster ∧
        (oldMaster, 0) ∈ cluster.handedOver ∧ (cluster.servers oldMaster).isWorking = true ∧
        cluster.confServer.conf.group.mHashTable.get pairShape.master ⟨0, by decide⟩ =
          newMaster := by decide +kernel
  refine ⟨cluster, run, marked, working, moved, ?_⟩
  exact handed_over_stays (.of_guardedRun _ .start run) ⟨0, by decide⟩ marked (by decide) (by decide)
    (by decide)

/-- A config server comes up after the hand-over. The version moves without a change of
the tables, the old master takes its table again and forgets the mark, and it serves
the bucket while the config server names the new master. -/
theorem handed_over_served_again :
    ∃ cluster, Reached step (fun _ _ => True) pairStart cluster ∧
      (oldMaster, 0) ∈ cluster.handedOver ∧
      cluster.confServer.conf.group.mHashTable.get pairShape.master ⟨0, by decide⟩ = newMaster ∧
      (cluster.servers oldMaster).process oldMaster putRequest = .ok .servedLocally :=
  exists_run (handsOver ++ .incVersion serverUpIncStep :: takesTable) (by decide +kernel)

end Cluster

end Tair
