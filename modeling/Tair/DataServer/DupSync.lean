/-
Synchronous duplication. A write that the master has stored is sent to the slaves of its bucket. A
wait node holds the client's connection, what goes into the answer and the slaves that have not
acknowledged; the last acknowledgement takes it out. Nodes are counted per bucket.
-/

import Tair.Common.ReturnCode
import Tair.DataServer.TairManager

namespace Tair.DataServer

open Tair.Common (ReturnCode)
open Tair.Library
open Tair.ConfigServer (Fault)

def maxDupCount : Nat := 2

def tairMaxBucketNumber : Nat := 1024

def maxBucketFreeCount : Nat := 300

def tairMaxDupMapSize : Nat := 102400

inductive LeftOrRight where
  | left
  | right
deriving DecidableEq, Repr

inductive ExistOrNot where
  | notExist
  | exist
deriving DecidableEq, Repr

/-- The requests that have a packet for the slaves. A remove has one key or several. -/
inductive WriteKind where
  | put
  | putnx
  | remove
  | removeList
  | ltrim
  | lrem
  | lset
  | hmset
  | hset
  | hsetnx
  | hdel
  | spop
  | srem
  | sadd
  | saddMulti
  | sremMulti
  | zadd
  | zrem
  | zremrangebyrank
  | zremrangebyscore
  | lrpush (en : ExistOrNot) (lr : LeftOrRight)
  | lrpushLimit (en : ExistOrNot) (lr : LeftOrRight)
  | lrpop (lr : LeftOrRight)
deriving DecidableEq, Repr

/-- What the call of the storage gave back. `retnum` is the number of removed elements,
for `hmset` that of the fields it has set. -/
structure StoreResult where
  rc : ReturnCode
  retnum : Int
  pushedNum : Nat
  listLen : Nat
  values : List (List UInt8)
  value : List UInt8
deriving DecidableEq, Repr

inductive ReplyType where
  | returned
  | lset
  | ltrim
  | lrem
  | hmset
  | hset
  | hsetnx
  | hdel
  | spop
  | srem
  | sadd
  | zadd
  | zrem
  | zremrangebyrank
  | zremrangebyscore
  | lrpush (en : ExistOrNot) (lr : LeftOrRight)
  | lrpop (lr : LeftOrRight)
deriving DecidableEq, Repr

/-- An answer. The constructor of `response_lrem` leaves `retnum` as it finds it, which is
`none` here until somebody writes the field. -/
structure Reply where
  pcode : ReplyType
  code : Int
  retnum : Option Int
  pushedNum : Int
  listLen : Int
  values : List (List UInt8)
  value : List UInt8
deriving DecidableEq, Repr

def Reply.blank (pcode : ReplyType) : Reply where
  pcode := pcode
  code := 0
  retnum := if pcode = .lrem then none else some 0
  pushedNum := 0
  listLen := 0
  values := []
  value := []

def Reply.setReturnPacket (code : Int) : Reply := { Reply.blank .returned with code }

/-! ### Wait nodes -/

/-- `CPacket_wait_Nodes`. The client is known by its request. -/
structure WaitNode where
  request : Nat
  pcode : WriteKind
  bucketNumber : Nat
  incValueResult : Int
  ret1 : Int
  ret2 : Int
  retValues : List (List UInt8)
  desServerIds : List UInt64

namespace WaitNode

/-- The constructor. There is room for two servers; what is left of it is 0. -/
def construct (bucketNumber request : Nat) (pcode : WriteKind) (desServerIds : List UInt64) :
    WaitNode where
  request := request
  pcode := pcode
  bucketNumber := bucketNumber
  incValueResult := 0
  ret1 := 0
  ret2 := 0
  retValues := []
  desServerIds := (desServerIds ++ List.replicate maxDupCount 0).take maxDupCount

def acknowledge (node : WaitNode) (desSrvid : UInt64) : WaitNode :=
  { node with desServerIds := node.desServerIds.map (fun id => if id = desSrvid then 0 else id) }

def doResponse (node : WaitNode) (desSrvid : UInt64) : WaitNode × ReturnCode :=
  (node.acknowledge desSrvid, if desSrvid ∉ node.desServerIds then .duplicateReack
    else if (node.acknowledge desSrvid).desServerIds.all (fun id => id = 0) then .success
    else .duplicateAckWait)

end WaitNode

variable (kind : WriteKind)

/-- The node that `duplicate_data` makes for a request of this kind. What is to be answered
later goes into the members that are free. -/
def WriteKind.waitNode (result : StoreResult) (bucketNumber request : Nat) (slaves : List UInt64) :
    WaitNode :=
  let node := WaitNode.construct bucketNumber request kind slaves
  match kind with
  | .put | .putnx | .ltrim | .lrem | .lset | .hsetnx | .hdel | .spop | .srem | .zrem
  | .lrpushLimit _ _ => node
  -- the list of keys goes with a code that is never changed from 0
  | .removeList => { node with ret1 := 0 }
  | .remove | .hmset | .hset | .sadd | .saddMulti | .sremMulti | .zadd =>
    { node with ret1 := result.rc.code }
  | .zremrangebyrank | .zremrangebyscore => { node with ret1 := result.retnum }
  | .lrpush _ _ => { node with
      ret1 := result.pushedNum, ret2 := result.listLen, incValueResult := result.rc.code }
  | .lrpop _ => { node with ret1 := result.rc.code, retValues := result.values }

def rspPacket (node : WaitNode) : Reply :=
  match node.pcode with
  | .remove | .removeList => .setReturnPacket node.ret1
  | .put | .putnx => .setReturnPacket 0
  | .lset => .blank .lset
  | .ltrim => .blank .ltrim
  | .lrem => .blank .lrem
  | .hmset => { Reply.blank .hmset with code := node.ret1 }
  | .hset => { Reply.blank .hset with code := node.ret1 }
  | .hsetnx => .blank .ltrim
  | .hdel => .blank .hdel
  | .spop => .blank .spop
  | .sremMulti | .srem => .blank .srem
  | .sadd | .saddMulti => { Reply.blank .sadd with code := node.ret1 }
  | .zadd => { Reply.blank .zadd with code := node.ret1 }
  | .zrem => .blank .zrem
  | .zremrangebyrank => { Reply.blank .zremrangebyrank with retnum := some node.ret1 }
  | .zremrangebyscore => { Reply.blank .zremrangebyscore with retnum := some node.ret1 }
  | .lrpushLimit en lr =>
    { Reply.blank (.lrpush en lr) with pushedNum := node.ret1, listLen := node.ret2 }
  | .lrpop lr => { Reply.blank (.lrpop lr) with code := node.ret1, values := node.retValues }
  | .lrpush en lr =>
    { Reply.blank (.lrpush en lr) with
      code := node.incValueResult, pushedNum := node.ret1, listLen := node.ret2 }

/-! ### The map of the nodes -/

/-- `CPacket_wait_manager`. All nodes are in the first of the maps, because the numbers of
`m_bucket_count` are guarded by its lock. -/
structure WaitManager where
  pkgWaitMap : AList (fun _ : UInt32 => WaitNode)
  bucketCount : Nat → Nat

namespace WaitManager

def construct : WaitManager := ⟨∅, fun _ => 0⟩

variable (manager : WaitManager)

/-- A number that would fall below 0 stays 0. -/
def changeBucketCount (bucketNumber : Nat) (change : Nat → Nat) : Except Fault WaitManager :=
  if bucketNumber < tairMaxBucketNumber then
    .ok { manager with
      bucketCount := Function.update manager.bucketCount bucketNumber
        (change (manager.bucketCount bucketNumber)) }
  else .error .assertFailed

def isBucketFree (bucketNumber : Nat) : Except Fault Bool :=
  if bucketNumber < tairMaxBucketNumber then
    .ok (decide (manager.bucketCount bucketNumber < maxBucketFreeCount))
  else .error .assertFailed

/-- The first critical section of `addWaitNode`. -/
def isFull : Bool := manager.pkgWaitMap.entries.length > tairMaxDupMapSize

/-- The second one. -/
def insertNode (node : WaitNode) (bucketNumber : Nat) (packetId : UInt32) :
    Except Fault (WaitManager × ReturnCode) :=
  match manager.pkgWaitMap.lookup packetId with
  | some _ => .ok (manager, .duplicateIdmixed)
  | none => (fun counted => ({ counted with pkgWaitMap := manager.pkgWaitMap.insert packetId node },
      .success)) <$> manager.changeBucketCount bucketNumber (· + 1)

/-- The number that goes down is that of the bucket the acknowledgement names. -/
def doResponse (manager : WaitManager) (bucketNumber : Nat) (desServerId : UInt64)
    (packetId : UInt32) : Except Fault (WaitManager × ReturnCode × Option WaitNode) :=
  match manager.pkgWaitMap.lookup packetId with
  | none => .ok (manager, .duplicateDelay, none)
  | some node =>
    let answered := node.doResponse desServerId
    if answered.2 = .success then
      (fun counted => ({ counted with pkgWaitMap := manager.pkgWaitMap.erase packetId },
        .success, some answered.1)) <$> manager.changeBucketCount bucketNumber (· - 1)
    else .ok ({ manager with pkgWaitMap := manager.pkgWaitMap.insert packetId answered.1 },
      answered.2, none)

def clearWaitnode (packetId : UInt32) : Except Fault WaitManager :=
  match manager.pkgWaitMap.lookup packetId with
  | none => .ok manager
  | some node =>
    (fun counted => { counted with pkgWaitMap := manager.pkgWaitMap.erase packetId }) <$>
      manager.changeBucketCount node.bucketNumber (· - 1)

/-- A timeout only takes the node away. The client is not told. -/
def doTimeout (packetId : UInt32) : Except Fault WaitManager :=
  manager.clearWaitnode packetId

theorem changeBucketCount_ok {manager counted : WaitManager} {bucketNumber : Nat}
    {change : Nat → Nat} (changed : manager.changeBucketCount bucketNumber change = .ok counted) :
    bucketNumber < tairMaxBucketNumber ∧ counted = { manager with
      bucketCount := Function.update manager.bucketCount bucketNumber
        (change (manager.bucketCount bucketNumber)) } := by
  unfold changeBucketCount at changed
  split_ifs at changed with small
  cases changed
  exact ⟨small, rfl⟩

theorem insertNode_cases {manager added : WaitManager} {node : WaitNode} {bucketNumber : Nat}
    {id : UInt32} {rc : ReturnCode}
    (inserted : manager.insertNode node bucketNumber id = .ok (added, rc)) :
    ((∃ other, manager.pkgWaitMap.lookup id = some other) ∧ rc = .duplicateIdmixed ∧
        added = manager) ∨
      (manager.pkgWaitMap.lookup id = none ∧ rc = .success ∧
        bucketNumber < tairMaxBucketNumber ∧
        added = ⟨manager.pkgWaitMap.insert id node, Function.update manager.bucketCount bucketNumber
            (manager.bucketCount bucketNumber + 1)⟩) := by
  unfold insertNode at inserted
  split at inserted
  next other found =>
    cases inserted
    exact .inl ⟨⟨other, found⟩, rfl, rfl⟩
  next found =>
    obtain ⟨counted, changed, same⟩ := ok_of_map inserted
    obtain ⟨small, rfl⟩ := changeBucketCount_ok changed
    cases same
    exact .inr ⟨found, rfl, small, rfl⟩

theorem doResponse_cases {manager answered : WaitManager} {bucketNumber : Nat}
    {desServerId : UInt64} {id : UInt32} {rc : ReturnCode} {completed : Option WaitNode}
    (responded : manager.doResponse bucketNumber desServerId id =
      .ok (answered, rc, completed)) :
    (manager.pkgWaitMap.lookup id = none ∧ completed = none ∧ answered = manager) ∨
      ∃ node, manager.pkgWaitMap.lookup id = some node ∧
        (((node.doResponse desServerId).2 ≠ .success ∧ completed = none ∧ answered = { manager with
            pkgWaitMap := manager.pkgWaitMap.insert id (node.acknowledge desServerId) }) ∨
          ((node.doResponse desServerId).2 = .success ∧
            completed = some (node.acknowledge desServerId) ∧
            bucketNumber < tairMaxBucketNumber ∧
            answered = ⟨manager.pkgWaitMap.erase id,
              Function.update manager.bucketCount bucketNumber
                (manager.bucketCount bucketNumber - 1)⟩)) := by
  unfold doResponse at responded
  split at responded
  next found =>
    cases responded
    exact .inl ⟨found, rfl, rfl⟩
  next node found =>
    refine .inr ⟨node, found, ?_⟩
    dsimp only at responded
    split_ifs at responded with last
    · obtain ⟨counted, changed, same⟩ := ok_of_map responded
      obtain ⟨small, rfl⟩ := changeBucketCount_ok changed
      cases same
      exact .inr ⟨last, rfl, small, rfl⟩
    · cases responded
      exact .inl ⟨last, rfl, rfl⟩

theorem clearWaitnode_cases {manager clean : WaitManager} {id : UInt32}
    (clears : manager.clearWaitnode id = .ok clean) :
    (manager.pkgWaitMap.lookup id = none ∧ clean = manager) ∨
      ∃ node, manager.pkgWaitMap.lookup id = some node ∧
        clean = ⟨manager.pkgWaitMap.erase id, Function.update manager.bucketCount node.bucketNumber
            (manager.bucketCount node.bucketNumber - 1)⟩ := by
  unfold clearWaitnode at clears
  split at clears
  next found =>
    cases clears
    exact .inl ⟨found, rfl⟩
  next node found =>
    obtain ⟨counted, changed, rfl⟩ := ok_of_map clears
    obtain ⟨-, rfl⟩ := changeBucketCount_ok changed
    exact .inr ⟨node, found, rfl⟩

end WaitManager

/-! ### Handlers -/

def WriteKind.duplicates (rc : ReturnCode) : Bool :=
  match kind with
  | .remove | .removeList => rc = .success ∨ rc = .dataNotExist
  | _ => rc = .success

def WriteKind.answer (result : StoreResult) : Reply :=
  let code := result.rc.code
  match kind with
  | .put | .putnx | .remove | .removeList => .setReturnPacket code
  -- a success that needs no duplicate is left to the caller
  | .ltrim => if result.rc = .success then .setReturnPacket code else { Reply.blank .ltrim with code }
  | .lrem => { Reply.blank .lrem with code, retnum := some result.retnum }
  | .lset => { Reply.blank .lset with code }
  | .hmset => { Reply.blank .hmset with code, retnum := some result.retnum }
  | .hset => { Reply.blank .hset with code }
  | .hsetnx => { Reply.blank .hsetnx with code }
  | .hdel => { Reply.blank .hdel with code }
  | .spop => { Reply.blank .spop with code, value := result.value }
  | .srem | .sremMulti => { Reply.blank .srem with code }
  | .sadd | .saddMulti => { Reply.blank .sadd with code }
  | .zadd => { Reply.blank .zadd with code }
  | .zrem => { Reply.blank .zrem with code }
  | .zremrangebyrank => { Reply.blank .zremrangebyrank with code, retnum := some result.retnum }
  | .zremrangebyscore => { Reply.blank .zremrangebyscore with code, retnum := some result.retnum }
  -- the numbers are in variables that are not copied
  | .lrpush en lr => { Reply.blank (.lrpush en lr) with code }
  | .lrpushLimit en lr => { Reply.blank (.lrpush en lr) with
      code, pushedNum := result.pushedNum, listLen := result.listLen }
  -- the values stay in the handler
  | .lrpop lr => { Reply.blank (.lrpop lr) with code }

/-- What a handler answers, with its caller, once `duplicate_data` has returned `rc`. Most
kinds leave everything to the acknowledgements, whatever `rc` says. -/
def WriteKind.answerDuplicated (result : StoreResult) (rc : ReturnCode) : List Reply :=
  match kind with
  | .put | .putnx | .remove | .removeList | .lset =>
    if rc = .dupWaitRsp then [] else [.setReturnPacket rc.code]
  -- its own response goes out at once
  | .lrem => [{ Reply.blank .lrem with code := rc.code, retnum := some result.retnum }]
  | .ltrim | .hmset | .hset | .hsetnx | .hdel | .spop | .srem | .sadd | .saddMulti | .sremMulti
  | .zadd | .zrem | .zremrangebyrank | .zremrangebyscore | .lrpush _ _ | .lrpushLimit _ _
  | .lrpop _ => []

/-- The packet for a slave is a copy of the request. That of a list of keys asserts when
it clones its values. -/
def WriteKind.copy : Except Fault Unit :=
  match kind with
  | .saddMulti | .sremMulti => .error .assertFailed
  | _ => .ok ()

/-- The `encode` of `hsetnx` and `spop` is not written yet and asserts. -/
def WriteKind.encode : Except Fault Unit :=
  match kind with
  | .hsetnx | .spop => .error .assertFailed
  | _ => .ok ()

end Tair.DataServer
