/-
A data server that replicates. Workers, acknowledgements, timeouts and the migration go on side by
side. Every step is one critical section or one call of the network, so the runs are all their
orders.
-/

import Tair.DataServer.DupSync
import Tair.Library.CountedTable

namespace Tair.DataServer

open Tair.Common (ReturnCode)
open Tair.Library
open Tair.ConfigServer (Fault)

def WriteKind.requestKind : WriteKind → RequestKind
  | .put => .put
  | .putnx => .putnx
  | .remove | .removeList => .remove
  | .lrpush _ _ => .lrpush
  | .lrpushLimit _ _ => .lrpushLimit
  | .lrpop _ => .lrpop
  | _ => .commands

/-- A request of a client, with what the storage will answer to it. `keyHash` and `keyFlag`
are those of its first key. -/
structure WriteRequest where
  kind : WriteKind
  keyHash : UInt32
  hashCode : Int
  keyFlag : ServerFlag
  result : StoreResult

def WriteRequest.stored (kind : WriteKind) : WriteRequest :=
  ⟨kind, 0, -1, .client, ⟨.success, 0, 0, 0, [], []⟩⟩

/-- How far a worker is with `duplicate_data`. -/
inductive Stage where
  | checkSize
  | insertNode
  | send
  | returned
deriving DecidableEq, Repr

/-- What has become of a packet that was sent. A slave that cannot work answers, but not
with an acknowledgement. -/
inductive Fate where
  | outstanding
  | acknowledged
  | timedOut
  | refused
deriving DecidableEq, Repr

/-- A request that a worker has taken. The slaves get their packets in this order, and
`fates` has those that went out. `replies` are what the client has been sent. -/
structure Call where
  kind : WriteKind
  result : StoreResult
  bucketNumber : Nat
  slaves : List UInt64
  packetId : UInt32
  stage : Stage
  fates : List Fate
  replies : List Reply

/-- A request is known by its place in `calls`. -/
structure DupServer where
  manager : TairManager
  packetIdCreater : UInt32
  packetsMgr : WaitManager
  calls : List Call

/-- Packets are named by their request and their place among its packets. -/
inductive DupEvent where
  | update (manager : TairManager)
  | write (req : WriteRequest)
  | proceed (request : Nat) (accepted : Bool)
  | acknowledge (request place : Nat)
  | timeOut (request place : Nat)
  | refuse (request place : Nat)
  | finishMigrate (bucketNumber : Nat)

namespace Call

def answered (req : WriteRequest) (reply : Reply) : Call where
  kind := req.kind
  result := req.result
  bucketNumber := 0
  slaves := []
  packetId := 0
  stage := .returned
  fates := []
  replies := [reply]

/-- The beginning of `duplicate_data`. -/
def begun (req : WriteRequest) (bucketNumber : Nat) (slaves : List UInt64) (packetId : UInt32) :
    Call where
  kind := req.kind
  result := req.result
  bucketNumber := bucketNumber
  slaves := slaves
  packetId := packetId
  stage := .checkSize
  fates := []
  replies := []

/-- `duplicate_data` has returned, and with it the handler. -/
def concluded (call : Call) (rc : ReturnCode) : Call :=
  { call with
    stage := .returned
    replies := call.replies ++ call.kind.answerDuplicated call.result rc }

def withFate (call : Call) (place : Nat) (fate : Fate) : Call :=
  { call with fates := call.fates.set place fate }

def withReply (call : Call) (reply : Reply) : Call :=
  { call with replies := call.replies ++ [reply] }

end Call

namespace DupServer

def start (manager : TairManager) : DupServer := ⟨manager, 0, .construct, []⟩

section

variable (server : DupServer)

abbrev nodes : AList fun _ : UInt32 => WaitNode := server.packetsMgr.pkgWaitMap

def withCall (request : Nat) (call : Call) : DupServer :=
  { server with calls := server.calls.set request call }

def post (request : Nat) (reply : Reply) : DupServer :=
  { server with calls := server.calls.modify request (·.withReply reply) }

/-- A handler up to the point where it has a packet id. An id that is 0 is used, only the
next one is further away. -/
def write (localIp : UInt64) (req : WriteRequest) :
    Except Fault DupServer := do
  match ← server.manager.process localIp ⟨req.kind.requestKind, req.keyHash, req.hashCode⟩ with
  | .serverCanNotWork => return { server with
      calls := server.calls ++ [.answered req (.setReturnPacket ReturnCode.serverCanNotWork.code)] }
  | .shouldProxy => return { server with
      calls := server.calls ++ [.answered req (.setReturnPacket ReturnCode.shouldProxy.code)] }
  | .servedLocally =>
    if req.kind.duplicates req.result.rc ∧ needCopy req.keyFlag then
      let bucketNumber := server.manager.getBucketNumber req.keyHash
      let slaves ← server.manager.getSlaves localIp req.keyFlag bucketNumber
      let copyCount := UInt32.ofNat slaves.length
      let packetId := server.packetIdCreater + copyCount
      return { server with
        packetIdCreater := if packetId = 0 then packetId + copyCount else packetId
        calls := server.calls ++ [.begun req bucketNumber slaves packetId] }
    else return { server with
      calls := server.calls ++ [.answered req (req.kind.answer req.result)] }

def sendPacket (request : Nat) (call : Call) (accepted : Bool) : Except Fault DupServer :=
  match call.slaves[call.fates.length]? with
  | none => .ok (server.withCall request (call.concluded .dupWaitRsp))
  | some _ => do
    call.kind.copy
    if accepted then
      call.kind.encode
      return server.withCall request { call with fates := call.fates ++ [.outstanding] }
    else
      let cleared ← server.packetsMgr.clearWaitnode call.packetId
      return { server with packetsMgr := cleared }.withCall request
        (call.concluded .duplicateBusy)

def proceed (request : Nat) (accepted : Bool) : Except Fault DupServer :=
  match server.calls[request]? with
  | none => .ok server
  | some call =>
    match call.stage with
    | .checkSize =>
      if server.packetsMgr.isFull then
        .ok (server.withCall request (call.concluded .duplicateBusy))
      else .ok (server.withCall request { call with stage := .insertNode })
    | .insertNode => do
      let (added, rc) ← server.packetsMgr.insertNode
        (call.kind.waitNode call.result call.bucketNumber request call.slaves)
        call.bucketNumber call.packetId
      if rc = .success then
        return { server with packetsMgr := added }.withCall request { call with stage := .send }
      else return server.withCall request (call.concluded rc)
    | .send => server.sendPacket request call accepted
    | .returned => .ok server

/-- `do_duplicate_response` for the packet at this place. -/
def acknowledge (request place : Nat) : Except Fault DupServer :=
  match server.calls[request]? with
  | none => .ok server
  | some call =>
    match call.fates[place]?, call.slaves[place]? with
    | some _, some slave => do
      let (answered, _, node) ←
        server.packetsMgr.doResponse call.bucketNumber slave call.packetId
      let marked := { server with packetsMgr := answered }.withCall request
        (call.withFate place .acknowledged)
      match node with
      | none => return marked
      | some node => return marked.post node.request (rspPacket node)
    | _, _ => .ok server

/-- `handleTimeOutPacket` for a packet that nobody has answered. -/
def timeOut (request place : Nat) : Except Fault DupServer :=
  match server.calls[request]? with
  | none => .ok server
  | some call =>
    if call.fates[place]? = some .outstanding then
      (fun cleared => { server with packetsMgr := cleared }.withCall request
        (call.withFate place .timedOut)) <$> server.packetsMgr.doTimeout call.packetId
    else .ok server

/-- Another packet than an acknowledgement is freed and forgotten. -/
def refuse (request place : Nat) : DupServer :=
  match server.calls[request]? with
  | none => server
  | some call =>
    if call.fates[place]? = some .outstanding then
      server.withCall request (call.withFate place .refused)
    else server

/-- The migration leaves its wait on `has_bucket_duplicate_done`. -/
def finishMigrate (bucketNumber : Nat) : Except Fault DupServer :=
  (fun free =>
    if free then { server with
      manager := (server.manager.finishMigrateBucket bucketNumber).getD server.manager }
    else server) <$> server.packetsMgr.isBucketFree bucketNumber

end

def step (localIp : UInt64) (server : DupServer) : DupEvent → Except Fault DupServer
  | .update manager => .ok { server with manager := manager }
  | .write req => server.write localIp req
  | .proceed request accepted => server.proceed request accepted
  | .acknowledge request place => server.acknowledge request place
  | .timeOut request place => server.timeOut request place
  | .refuse request place => .ok (server.refuse request place)
  | .finishMigrate bucketNumber => server.finishMigrate bucketNumber

def withRow (localIp : UInt64) (row : List UInt64) : Except Fault DupServer :=
  start <$> TairManager.started.updateServerTable localIp
    ⟨row.toArray, tairConfigMinVersion, #[], row.length, 1⟩

theorem exists_call (Allowed : DupServer → DupEvent → Prop)
    [∀ server event, Decidable (Allowed server event)] (row : List UInt64)
    (events : List DupEvent) (P : Call → Prop)
    (ran : ∃ begun, withRow 1 row = .ok begun ∧
      ∃ server, guardedRun (step 1) Allowed events begun = some server ∧
        ∃ call, server.calls[0]? = some call ∧ P call) :
    ∃ manager server call, Reached (step 1) Allowed (start manager) server ∧
      server.calls[0]? = some call ∧ P call := by
  obtain ⟨begun, server, mapped, reached, call, holds⟩ := exists_reached events ran
  obtain ⟨manager, -, rfl⟩ := ok_of_map mapped
  exact ⟨manager, server, call, reached, holds⟩

/-! ### What a step can do -/

inductive Step (localIp : UInt64) (server : DupServer) : DupEvent → DupServer → Prop
  | same (event : DupEvent) : Step localIp server event server
  | managed (event : DupEvent) (manager : TairManager) :
      Step localIp server event { server with manager := manager }
  | answered {req : WriteRequest} (reply : Reply) : Step localIp server (.write req)
      { server with calls := server.calls ++ [.answered req reply] }
  | begun {req : WriteRequest} {slaves : List UInt64}
      (served : server.manager.process localIp
        ⟨req.kind.requestKind, req.keyHash, req.hashCode⟩ = .ok .servedLocally)
      (duplicates : req.kind.duplicates req.result.rc = true ∧ needCopy req.keyFlag = true)
      (slavesOf : server.manager.getSlaves localIp req.keyFlag
        (server.manager.getBucketNumber req.keyHash) = .ok slaves) (creater packetId : UInt32) :
      Step localIp server (.write req) { server with
        packetIdCreater := creater
        calls := server.calls ++
          [.begun req (server.manager.getBucketNumber req.keyHash) slaves packetId] }
  | full {request : Nat} {call : Call} (accepted : Bool)
      (found : server.calls[request]? = some call) (stage : call.stage = .checkSize)
      (isFull : server.packetsMgr.isFull = true) : Step localIp server (.proceed request accepted)
        (server.withCall request (call.concluded .duplicateBusy))
  | checked {request : Nat} {call : Call} (accepted : Bool)
      (found : server.calls[request]? = some call) (stage : call.stage = .checkSize) :
      Step localIp server (.proceed request accepted)
        (server.withCall request { call with stage := .insertNode })
  | mixed {request : Nat} {call : Call} {other : WaitNode} (accepted : Bool)
      (found : server.calls[request]? = some call) (stage : call.stage = .insertNode)
      (used : server.nodes.lookup call.packetId = some other) :
      Step localIp server (.proceed request accepted)
        (server.withCall request (call.concluded .duplicateIdmixed))
  | inserted {request : Nat} {call : Call} (accepted : Bool)
      (found : server.calls[request]? = some call) (stage : call.stage = .insertNode)
      (fresh : server.nodes.lookup call.packetId = none) :
      Step localIp server (.proceed request accepted)
        ({ server with packetsMgr := ⟨server.nodes.insert call.packetId
            (call.kind.waitNode call.result call.bucketNumber request call.slaves),
            Function.update server.packetsMgr.bucketCount call.bucketNumber
              (server.packetsMgr.bucketCount call.bucketNumber + 1)⟩ }.withCall request
          { call with stage := .send })
  | finished {request : Nat} {call : Call} (accepted : Bool)
      (found : server.calls[request]? = some call) (stage : call.stage = .send)
      (all : call.slaves[call.fates.length]? = none) :
      Step localIp server (.proceed request accepted)
        (server.withCall request (call.concluded .dupWaitRsp))
  | sent {request : Nat} {call : Call} {slave : UInt64}
      (found : server.calls[request]? = some call) (stage : call.stage = .send)
      (more : call.slaves[call.fates.length]? = some slave) :
      Step localIp server (.proceed request true)
        (server.withCall request { call with fates := call.fates ++ [.outstanding] })
  | failed {request : Nat} {call : Call} {slave : UInt64} {cleared : WaitManager}
      (found : server.calls[request]? = some call) (stage : call.stage = .send)
      (more : call.slaves[call.fates.length]? = some slave)
      (clears : server.packetsMgr.clearWaitnode call.packetId = .ok cleared) :
      Step localIp server (.proceed request false)
        ({ server with packetsMgr := cleared }.withCall request (call.concluded .duplicateBusy))
  | late {request place : Nat} {call : Call} {fate : Fate} {slave : UInt64}
      (found : server.calls[request]? = some call) (out : call.fates[place]? = some fate)
      (slaveAt : call.slaves[place]? = some slave)
      (gone : server.nodes.lookup call.packetId = none) :
      Step localIp server (.acknowledge request place)
        (server.withCall request (call.withFate place .acknowledged))
  | marked {request place : Nat} {call : Call} {fate : Fate} {slave : UInt64} {node : WaitNode}
      (found : server.calls[request]? = some call) (out : call.fates[place]? = some fate)
      (slaveAt : call.slaves[place]? = some slave)
      (waiting : server.nodes.lookup call.packetId = some node)
      (others : (node.doResponse slave).2 ≠ .success) :
      Step localIp server (.acknowledge request place)
        ({ server with packetsMgr := { server.packetsMgr with
            pkgWaitMap := server.nodes.insert call.packetId
              (node.acknowledge slave) } }.withCall request (call.withFate place .acknowledged))
  | completed {request place : Nat} {call : Call} {fate : Fate} {slave : UInt64} {node : WaitNode}
      (found : server.calls[request]? = some call) (out : call.fates[place]? = some fate)
      (slaveAt : call.slaves[place]? = some slave)
      (waiting : server.nodes.lookup call.packetId = some node)
      (last : (node.doResponse slave).2 = .success) :
      Step localIp server (.acknowledge request place)
        (({ server with packetsMgr := ⟨server.nodes.erase call.packetId,
            Function.update server.packetsMgr.bucketCount call.bucketNumber
              (server.packetsMgr.bucketCount call.bucketNumber - 1)⟩ }.withCall request
          (call.withFate place .acknowledged)).post node.request
            (rspPacket (node.acknowledge slave)))
  | timedOut {request place : Nat} {call : Call} {cleared : WaitManager}
      (found : server.calls[request]? = some call)
      (out : call.fates[place]? = some .outstanding)
      (clears : server.packetsMgr.clearWaitnode call.packetId = .ok cleared) :
      Step localIp server (.timeOut request place)
        ({ server with packetsMgr := cleared }.withCall request (call.withFate place .timedOut))
  | refused {request place : Nat} {call : Call} (found : server.calls[request]? = some call)
      (out : call.fates[place]? = some .outstanding) :
      Step localIp server (.refuse request place)
        (server.withCall request (call.withFate place .refused))

variable {server next : DupServer} {ip : UInt64} {request : Nat}

theorem write_cases {req : WriteRequest} (wrote : server.write ip req = .ok next) :
    Step ip server (.write req) next := by
  unfold write at wrote
  obtain ⟨answer, processed, rest⟩ := ok_of_bind wrote
  cases answer with
  | serverCanNotWork =>
    cases rest
    exact .answered _
  | shouldProxy =>
    cases rest
    exact .answered _
  | servedLocally =>
    dsimp only at rest
    split_ifs at rest with duplicates
    · obtain ⟨slaves, slavesOf, rest⟩ := ok_of_bind rest
      cases rest
      exact .begun processed duplicates slavesOf _ _
    · cases rest
      exact .answered _

theorem sendPacket_cases {call : Call} {accepted : Bool}
    (found : server.calls[request]? = some call) (stage : call.stage = .send)
    (sends : server.sendPacket request call accepted = .ok next) :
    Step ip server (.proceed request accepted) next := by
  unfold sendPacket at sends
  split at sends
  next more =>
    cases sends
    exact .finished accepted found stage more
  next more =>
    obtain ⟨-, -, rest⟩ := ok_of_bind sends
    cases accepted with
    | true =>
      obtain ⟨-, -, rest⟩ := ok_of_bind rest
      cases rest
      exact .sent found stage more
    | false =>
      obtain ⟨clean, clears, rest⟩ := ok_of_bind rest
      cases rest
      exact .failed found stage more clears

theorem proceed_cases {accepted : Bool} (proceeds : server.proceed request accepted = .ok next) :
    Step ip server (.proceed request accepted) next := by
  unfold proceed at proceeds
  split at proceeds
  · cases proceeds
    exact .same _
  next call found =>
    split at proceeds
    next stage =>
      split_ifs at proceeds with isFull
      · cases proceeds
        exact .full accepted found stage isFull
      · cases proceeds
        exact .checked accepted found stage
    next stage =>
      obtain ⟨⟨added, rc⟩, inserts, rest⟩ := ok_of_bind proceeds
      cases WaitManager.insertNode_cases inserts with
      | inl mixed =>
        obtain ⟨⟨other, used⟩, rfl, -⟩ := mixed
        cases rest
        exact .mixed accepted found stage used
      | inr entered =>
        obtain ⟨fresh, rfl, -, rfl⟩ := entered
        cases rest
        exact .inserted accepted found stage fresh
    next stage => exact sendPacket_cases found stage proceeds
    · cases proceeds
      exact .same _

theorem acknowledge_cases {place : Nat} (acknowledged : server.acknowledge request place = .ok next) :
    Step ip server (.acknowledge request place) next := by
  unfold acknowledge at acknowledged
  split at acknowledged
  · cases acknowledged
    exact .same _
  next call found =>
    split at acknowledged
    next out slaveAt =>
      obtain ⟨⟨answered, rc, completed⟩, responded, rest⟩ := ok_of_bind acknowledged
      obtain ⟨gone, rfl, rfl⟩ | ⟨node, waiting, cases⟩ :=
        WaitManager.doResponse_cases responded
      · cases rest
        exact .late found out slaveAt gone
      · obtain ⟨others, rfl, rfl⟩ | ⟨last, rfl, -, rfl⟩ := cases
        · cases rest
          exact .marked found out slaveAt waiting others
        · cases rest
          have done : Step ip server (.acknowledge request place) _ :=
            .completed found out slaveAt waiting last
          exact done
    · cases acknowledged
      exact .same _

theorem step_cases {event : DupEvent} (ran : step ip server event = .ok next) :
    Step ip server event next := by
  cases event with
  | update manager =>
    cases ran
    exact .managed _ manager
  | write req => exact write_cases ran
  | proceed request accepted => exact proceed_cases ran
  | acknowledge request place => exact acknowledge_cases ran
  | timeOut request place =>
    change server.timeOut request place = .ok next at ran
    unfold timeOut at ran
    split at ran
    · cases ran
      exact .same _
    next found =>
      split_ifs at ran with out
      · obtain ⟨clean, clears, rfl⟩ := ok_of_map ran
        exact .timedOut found out clears
      · cases ran
        exact .same _
  | refuse request place =>
    cases ran
    unfold refuse
    cases found : server.calls[request]? with
    | none => exact .same _
    | some call =>
      dsimp only
      split_ifs with out
      · exact .refused found out
      · exact .same _
  | finishMigrate bucketNumber =>
    obtain ⟨free, -, rfl⟩ := ok_of_map ran
    cases free with
    | true => exact .managed _ _
    | false => exact .same _

end DupServer

end Tair.DataServer
