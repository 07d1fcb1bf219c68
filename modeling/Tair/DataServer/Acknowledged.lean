/-
What a success means to a client. A wait node has every slave of its request in one of its places
until that slave has acknowledged, if there are places enough; only when all are empty the client
is told.
-/

import Tair.DataServer.Replication

namespace Tair.DataServer

open Tair.Common (ReturnCode)
open Tair.Library
open Tair.ConfigServer (Fault)

/-! ### The slaves of a bucket -/

theorem TableManager.getSlaves_ne_zero {manager : TableManager} {ip : UInt64}
    {bucketNumber : Nat} {isMigrating : Bool} {slaves : List UInt64}
    (slavesOf : manager.getSlaves ip bucketNumber isMigrating = .ok slaves) : 0 ∉ slaves := by
  unfold getSlaves at slavesOf
  obtain ⟨table, -, rest⟩ := ok_of_bind slavesOf
  obtain ⟨master, -, rest⟩ := ok_of_bind rest
  by_cases other : master ≠ ip
  · rw [if_pos other] at rest
    cases rest
    exact List.not_mem_nil
  · rw [if_neg other] at rest
    obtain ⟨sids, -, rest⟩ := ok_of_bind rest
    cases rest
    intro listed
    have real := (List.mem_filter.mp listed).2
    exact absurd rfl (of_decide_eq_true real)

theorem TairManager.getSlaves_ne_zero {manager : TairManager} {ip : UInt64}
    {serverFlag : ServerFlag} {bucketNumber : Nat} {slaves : List UInt64}
    (slavesOf : manager.getSlaves ip serverFlag bucketNumber = .ok slaves) : 0 ∉ slaves := by
  unfold getSlaves at slavesOf
  split_ifs at slavesOf with single proxied
  · cases slavesOf
    exact List.not_mem_nil
  · exact TableManager.getSlaves_ne_zero slavesOf
  · obtain ⟨migrated, -, rest⟩ := ok_of_bind slavesOf
    exact TableManager.getSlaves_ne_zero rest

/-! ### Places of a node -/

namespace WaitNode

theorem mem_construct {slaves : List UInt64} (few : slaves.length ≤ maxDupCount)
    (bucketNumber request : Nat) (pcode : WriteKind) {slave : UInt64} (listed : slave ∈ slaves) :
    slave ∈ (construct bucketNumber request pcode slaves).desServerIds := by
  change slave ∈ (slaves ++ _).take maxDupCount
  rw [List.take_append, List.take_of_length_le few]
  exact List.mem_append_left _ listed

theorem mem_acknowledge_of_ne {node : WaitNode} {slave other : UInt64}
    (listed : other ∈ node.desServerIds) (ne : other ≠ slave) :
    other ∈ (node.acknowledge slave).desServerIds := by
  refine List.mem_map.mpr ⟨other, listed, ?_⟩
  rw [if_neg ne]

theorem eq_zero_of_complete {node : WaitNode} {slave other : UInt64}
    (last : (node.doResponse slave).2 = .success)
    (listed : other ∈ (node.acknowledge slave).desServerIds) : other = 0 := by
  unfold doResponse at last
  dsimp only at last
  split_ifs at last with unknown empty
  exact of_decide_eq_true (List.all_eq_true.mp empty other listed)

end WaitNode

variable (kind : WriteKind)

@[simp]
theorem WriteKind.waitNode_request (result : StoreResult)
    (bucketNumber request : Nat) (slaves : List UInt64) :
    (kind.waitNode result bucketNumber request slaves).request = request := by
  cases kind <;> rfl

@[simp]
theorem WriteKind.waitNode_bucketNumber (result : StoreResult)
    (bucketNumber request : Nat) (slaves : List UInt64) :
    (kind.waitNode result bucketNumber request slaves).bucketNumber = bucketNumber := by
  cases kind <;> rfl

@[simp]
theorem WriteKind.waitNode_desServerIds (result : StoreResult)
    (bucketNumber request : Nat) (slaves : List UInt64) :
    (kind.waitNode result bucketNumber request slaves).desServerIds =
      (WaitNode.construct bucketNumber request kind slaves).desServerIds := by
  cases kind <;> rfl

theorem WriteKind.answerDuplicated_code {result : StoreResult}
    {rc : ReturnCode} {reply : Reply} (sent : reply ∈ kind.answerDuplicated result rc) :
    reply.code = rc.code := by
  cases kind with
  | put | putnx | remove | removeList | lset =>
    change reply ∈ if rc = .dupWaitRsp then [] else _ at sent
    split_ifs at sent with waits
    · exact absurd sent List.not_mem_nil
    · cases List.mem_singleton.mp sent
      rfl
  | lrem =>
    cases List.mem_singleton.mp sent
    rfl
  | _ => exact absurd sent List.not_mem_nil

/-! ### Requests as they go on -/

namespace Call

def AckedBy (call : Call) (slave : UInt64) : Prop :=
  ∃ place : Nat, call.slaves[place]? = some slave ∧ call.fates[place]? = some .acknowledged

instance (call : Call) (slave : UInt64) : Decidable (call.AckedBy slave) :=
  decidable_of_iff (∃ place ∈ List.range call.slaves.length,
      call.slaves[place]? = some slave ∧ call.fates[place]? = some .acknowledged)
    ⟨fun ⟨place, _, acked⟩ => ⟨place, acked⟩, fun ⟨place, slaveAt, acked⟩ =>
      ⟨place, List.mem_range.mpr (List.getElem?_eq_some_iff.mp slaveAt).1, slaveAt, acked⟩⟩

structure Later (old new : Call) : Prop where
  kind : new.kind = old.kind
  result : new.result = old.result
  slaves : new.slaves = old.slaves
  packetId : new.packetId = old.packetId
  bucketNumber : new.bucketNumber = old.bucketNumber
  returned : old.stage = .returned → new.stage = .returned
  acknowledged : ∀ place : Nat, old.fates[place]? = some .acknowledged →
    new.fates[place]? = some .acknowledged

namespace Later

theorem refl (call : Call) : Later call call := ⟨rfl, rfl, rfl, rfl, rfl, id, fun _ acked => acked⟩

theorem trans {first second third : Call} (prior : Later first second)
    (later : Later second third) : Later first third :=
  ⟨later.kind.trans prior.kind, later.result.trans prior.result,
    later.slaves.trans prior.slaves, later.packetId.trans prior.packetId,
    later.bucketNumber.trans prior.bucketNumber,
    fun gave => later.returned (prior.returned gave),
    fun place acked => later.acknowledged place (prior.acknowledged place acked)⟩

theorem ackedBy {old new : Call} (later : Later old new) {slave : UInt64}
    (acked : old.AckedBy slave) : new.AckedBy slave := by
  obtain ⟨place, slaveAt, fate⟩ := acked
  refine ⟨place, ?_, later.acknowledged place fate⟩
  rw [later.slaves]
  exact slaveAt

theorem withStage {call : Call} (running : call.stage ≠ .returned) (stage : Stage) :
    Later call { call with stage } :=
  ⟨rfl, rfl, rfl, rfl, rfl, fun gave => absurd gave running, fun _ acked => acked⟩

theorem concluded (call : Call) (rc : ReturnCode) : Later call (call.concluded rc) :=
  ⟨rfl, rfl, rfl, rfl, rfl, fun _ => rfl, fun _ acked => acked⟩

theorem withReply (call : Call) (reply : Reply) : Later call (call.withReply reply) :=
  ⟨rfl, rfl, rfl, rfl, rfl, id, fun _ acked => acked⟩

theorem sent (call : Call) : Later call { call with fates := call.fates ++ [.outstanding] } := by
  refine ⟨rfl, rfl, rfl, rfl, rfl, id, fun place acked => ?_⟩
  obtain ⟨small, -⟩ := List.getElem?_eq_some_iff.mp acked
  change (call.fates ++ [Fate.outstanding])[place]? = _
  rw [List.getElem?_append_left small]
  exact acked

theorem withFate (call : Call) (place : Nat) {fate : Fate}
    (open_or_acked : fate = .acknowledged ∨ call.fates[place]? = some .outstanding) :
    Later call (call.withFate place fate) := by
  refine ⟨rfl, rfl, rfl, rfl, rfl, id, fun other acked => ?_⟩
  change (call.fates.set place fate)[other]? = _
  obtain ⟨small, -⟩ := List.getElem?_eq_some_iff.mp acked
  by_cases same : place = other
  · subst other
    rw [List.getElem?_set_self small]
    cases open_or_acked with
    | inl acknowledges => rw [acknowledges]
    | inr outstanding =>
      rw [outstanding] at acked
      cases acked
  · rw [List.getElem?_set_ne same]
    exact acked

end Later

theorem withFate_self {call : Call} {place : Nat} {fate : Fate}
    (out : call.fates[place]? = some fate) (new : Fate) :
    (call.withFate place new).fates[place]? = some new := by
  obtain ⟨small, -⟩ := List.getElem?_eq_some_iff.mp out
  exact List.getElem?_set_self small

end Call

namespace DupServer

variable {server : DupServer} {request other : Nat} {call old : Call}

theorem calls_withCall_self (found : server.calls[request]? = some call) (new : Call) :
    (server.withCall request new).calls[request]? = some new := by
  obtain ⟨small, -⟩ := List.getElem?_eq_some_iff.mp found
  exact List.getElem?_set_self small

theorem calls_withCall_of_ne (server : DupServer) (call : Call) (ne : request ≠ other) :
    (server.withCall request call).calls[other]? = server.calls[other]? :=
  List.getElem?_set_ne ne

theorem calls_post_self (server : DupServer) (request : Nat) (reply : Reply) :
    (server.post request reply).calls[request]? =
      server.calls[request]?.map (·.withReply reply) :=
  List.getElem?_modify_eq _ _ _

theorem calls_post_of_ne (server : DupServer) (reply : Reply) (ne : request ≠ other) :
    (server.post request reply).calls[other]? = server.calls[other]? :=
  List.getElem?_modify_ne _ _ ne

theorem calls_append_of_some (found : server.calls[request]? = some call) (new : Call) :
    (server.calls ++ [new])[request]? = some call := by
  obtain ⟨small, -⟩ := List.getElem?_eq_some_iff.mp found
  rw [List.getElem?_append_left small]
  exact found

theorem calls_append_cases {new : Call} (found : (server.calls ++ [new])[request]? = some call) :
    server.calls[request]? = some call ∨ call = new := by
  rw [List.getElem?_append] at found
  split_ifs at found with small
  · exact .inl found
  · exact .inr (List.mem_singleton.mp (List.mem_of_getElem? found))

theorem post_withCall (server : DupServer) (request : Nat) (call : Call) (reply : Reply) :
    (server.withCall request call).post request reply =
      server.withCall request (call.withReply reply) := by
  unfold post withCall
  dsimp only
  congr 1
  refine List.ext_getElem? (fun other => ?_)
  by_cases same : request = other
  · subst other
    rw [List.getElem?_modify_eq, List.getElem?_set_self', List.getElem?_set_self']
    cases server.calls[request]? <;> rfl
  · rw [List.getElem?_modify_ne _ _ same, List.getElem?_set_ne same, List.getElem?_set_ne same]

theorem later_withCall {new : Call} (found : server.calls[request]? = some call)
    (later : call.Later new) (oldFound : server.calls[other]? = some old) :
    ∃ latest, (server.withCall request new).calls[other]? = some latest ∧ old.Later latest := by
  by_cases same : request = other
  · subst other
    rw [found] at oldFound
    cases oldFound
    exact ⟨new, calls_withCall_self found new, later⟩
  · exact ⟨old, (calls_withCall_of_ne server new same).trans oldFound, .refl old⟩

theorem later_post (request : Nat) (reply : Reply) (oldFound : server.calls[other]? = some old) :
    ∃ latest, (server.post request reply).calls[other]? = some latest ∧ old.Later latest := by
  by_cases same : request = other
  · subst other
    refine ⟨old.withReply reply, ?_, .withReply old reply⟩
    rw [calls_post_self, oldFound]
    rfl
  · exact ⟨old, (calls_post_of_ne server reply same).trans oldFound, .refl old⟩

theorem Step.later {ip : UInt64} {next : DupServer} {event : DupEvent}
    (ran : Step ip server event next) (oldFound : server.calls[request]? = some old) :
    ∃ latest, next.calls[request]? = some latest ∧ old.Later latest := by
  cases ran with
  | same => exact ⟨old, oldFound, .refl old⟩
  | managed => exact ⟨old, oldFound, .refl old⟩
  | answered => exact ⟨old, calls_append_of_some oldFound _, .refl old⟩
  | begun => exact ⟨old, calls_append_of_some oldFound _, .refl old⟩
  | full _ found => exact later_withCall found (.concluded _ _) oldFound
  | checked _ found stage =>
    exact later_withCall found (.withStage (by rw [stage]; decide) _) oldFound
  | mixed _ found => exact later_withCall found (.concluded _ _) oldFound
  | inserted _ found stage =>
    exact later_withCall found (.withStage (by rw [stage]; decide) _) oldFound
  | finished _ found => exact later_withCall found (.concluded _ _) oldFound
  | sent found => exact later_withCall found (.sent _) oldFound
  | failed found => exact later_withCall found (.concluded _ _) oldFound
  | late found => exact later_withCall found (.withFate _ _ (.inl rfl)) oldFound
  | marked found => exact later_withCall found (.withFate _ _ (.inl rfl)) oldFound
  | completed found =>
    obtain ⟨marked, markedFound, first⟩ :=
      later_withCall found (.withFate _ _ (.inl rfl)) oldFound
    obtain ⟨latest, latestFound, second⟩ := later_post _ _ markedFound
    exact ⟨latest, latestFound, first.trans second⟩
  | timedOut found out => exact later_withCall found (.withFate _ _ (.inr out)) oldFound
  | refused found out => exact later_withCall found (.withFate _ _ (.inr out)) oldFound

theorem Step.earlier {ip : UInt64} {next : DupServer} {event : DupEvent}
    (ran : Step ip server event next) {latest : Call}
    (latestFound : next.calls[request]? = some latest) :
    (∃ old, server.calls[request]? = some old ∧ old.Later latest) ∨
      (∃ req reply, latest = .answered req reply) ∨
      (∃ (req : WriteRequest) (bucketNumber : Nat) (slaves : List UInt64) (packetId : UInt32),
        req.kind.duplicates req.result.rc = true ∧
          latest = .begun req bucketNumber slaves packetId) := by
  cases oldFound : server.calls[request]? with
  | some old =>
    obtain ⟨same, sameFound, later⟩ := ran.later oldFound
    rw [latestFound] at sameFound
    cases sameFound
    exact .inl ⟨old, rfl, later⟩
  | none =>
    right
    have past : server.calls.length ≤ request := List.getElem?_eq_none_iff.mp oldFound
    obtain ⟨small, -⟩ := List.getElem?_eq_some_iff.mp latestFound
    cases ran with
    | answered reply =>
      cases calls_append_cases latestFound with
      | inl before =>
        rw [oldFound] at before
        cases before
      | inr new => exact .inl ⟨_, reply, new⟩
    | begun _ duplicates =>
      cases calls_append_cases latestFound with
      | inl before =>
        rw [oldFound] at before
        cases before
      | inr new => exact .inr ⟨_, _, _, _, duplicates.1, new⟩
    | same | managed => exact absurd small past.not_gt
    | completed =>
      rw [post, withCall, List.length_modify, List.length_set] at small
      exact absurd small past.not_gt
    | _ =>
      rw [withCall, List.length_set] at small
      exact absurd small past.not_gt

/-! ### No success before the last acknowledgement -/

def nodeOf (server : DupServer) (request : Nat) : Option WaitNode :=
  server.calls[request]?.bind (fun call => server.nodes.lookup call.packetId)

/-- The packet ids have not come round: the node under the id of this request is its own. -/
def Own (server : DupServer) (request : Nat) : Prop :=
  ∀ node ∈ server.nodeOf request, node.request = request

instance (server : DupServer) (request : Nat) : Decidable (server.Own request) :=
  inferInstanceAs (Decidable (∀ node ∈ server.nodeOf request, node.request = request))

/-- The condition on the steps: there are places enough for the slaves of a write that is
replicated, and an acknowledgement does not meet the node of a later request. -/
def Narrow (localIp : UInt64) (server : DupServer) : DupEvent → Prop
  | .write req => req.kind.duplicates req.result.rc = true ∧ needCopy req.keyFlag = true →
    ∀ slaves ∈ (server.manager.getSlaves localIp req.keyFlag
      (server.manager.getBucketNumber req.keyHash)).toOption, slaves.length ≤ maxDupCount
  | .acknowledge request _ => server.Own request
  | _ => True

instance (localIp : UInt64) (server : DupServer) :
    ∀ event : DupEvent, Decidable (Narrow localIp server event)
  | .write _ => inferInstanceAs (Decidable (_ → ∀ _ ∈ _, _))
  | .acknowledge request _ => inferInstanceAs (Decidable (server.Own request))
  | .update _ | .proceed _ _ | .timeOut _ _ | .refuse _ _ | .finishMigrate _ => .isTrue trivial

end DupServer

structure Call.Fair (call : Call) : Prop where
  nonzero : 0 ∉ call.slaves
  few : call.slaves.length ≤ maxDupCount
  success : ∀ reply ∈ call.replies, reply.code = ReturnCode.success.code →
    ∀ slave ∈ call.slaves, call.AckedBy slave

namespace Call.Fair

theorem answered (req : WriteRequest) (reply : Reply) : (Call.answered req reply).Fair :=
  ⟨List.not_mem_nil, Nat.zero_le _, fun _ _ _ _ listed => absurd listed List.not_mem_nil⟩

theorem later {old new : Call} (fair : old.Fair) (later : old.Later new)
    (replies : ∀ reply ∈ new.replies, reply ∈ old.replies ∨
      reply.code ≠ ReturnCode.success.code) : new.Fair := by
  refine ⟨?_, ?_, fun reply sent success slave listed => ?_⟩
  · rw [later.slaves]
    exact fair.nonzero
  · rw [later.slaves]
    exact fair.few
  · rw [later.slaves] at listed
    cases replies reply sent with
    | inl before => exact later.ackedBy (fair.success reply before success slave listed)
    | inr other => exact absurd success other

theorem concluded {call : Call} (fair : call.Fair) {rc : ReturnCode}
    (other : rc.code ≠ ReturnCode.success.code) : (call.concluded rc).Fair := by
  refine fair.later (.concluded call rc) (fun reply sent => ?_)
  cases List.mem_append.mp sent with
  | inl before => exact .inl before
  | inr last =>
    right
    rw [call.kind.answerDuplicated_code last]
    exact other

theorem withReply {call : Call} (fair : call.Fair) (reply : Reply)
    (all : ∀ slave ∈ call.slaves, call.AckedBy slave) : (call.withReply reply).Fair :=
  ⟨fair.nonzero, fair.few, fun _ _ _ slave listed =>
    (Later.withReply call reply).ackedBy (all slave listed)⟩

end Call.Fair

namespace DupServer

def Vouches (server : DupServer) (packetId : UInt32) (node : WaitNode) : Prop :=
  ∃ call, server.calls[node.request]? = some call ∧ call.packetId = packetId ∧
    node.bucketNumber = call.bucketNumber ∧
    ∀ slave ∈ call.slaves, slave ∈ node.desServerIds ∨ call.AckedBy slave

structure Vouched (server : DupServer) : Prop where
  node : ∀ {packetId : UInt32} {node : WaitNode},
    server.nodes.lookup packetId = some node → server.Vouches packetId node
  fair : ∀ {request : Nat} {call : Call}, server.calls[request]? = some call → call.Fair

variable {ip : UInt64} {server next : DupServer} {event : DupEvent} {packetId : UInt32}
  {node : WaitNode} {request : Nat} {call : Call} {manager clean : WaitManager}

theorem Vouches.later (vouches : server.Vouches packetId node)
    (ran : Step ip server event next) : next.Vouches packetId node := by
  obtain ⟨call, found, own, bucket, held⟩ := vouches
  obtain ⟨latest, latestFound, later⟩ := ran.later found
  refine ⟨latest, latestFound, later.packetId.trans own, bucket.trans later.bucketNumber.symm,
    fun slave listed => ?_⟩
  rw [later.slaves] at listed
  exact (held slave listed).imp_right later.ackedBy

theorem forall_withCall {P : Call → Prop}
    (all : ∀ {request : Nat} {call : Call}, server.calls[request]? = some call → P call)
    {old new : Call} (oldFound : server.calls[request]? = some old) (fresh : P new) {other : Nat}
    (found : (server.withCall request new).calls[other]? = some call) : P call := by
  by_cases same : request = other
  · subst other
    rw [calls_withCall_self oldFound] at found
    cases found
    exact fresh
  · rw [calls_withCall_of_ne server new same] at found
    exact all found

theorem Vouched.start (manager : TairManager) : (start manager).Vouched := by
  refine ⟨fun waiting => ?_, fun found => ?_⟩
  · cases waiting
  · cases found

theorem lookup_of_lookup_erase {table : AList (fun _ : UInt32 => WaitNode)} {other : UInt32}
    (waiting : (table.erase packetId).lookup other = some node) :
    table.lookup other = some node := by
  by_cases same : other = packetId
  · rw [same, AList.lookup_erase] at waiting
    cases waiting
  · rw [AList.lookup_erase_ne same] at waiting
    exact waiting

/-- A node after a step is one from before, or the new one of a request, or one that has
just been acknowledged. -/
theorem Step.node_cases (ran : Step ip server event next)
    (waiting : next.nodes.lookup packetId = some node) :
    server.nodes.lookup packetId = some node ∨
      (∃ (request : Nat) (call : Call), server.calls[request]? = some call ∧
        call.stage = .insertNode ∧ call.packetId = packetId ∧
        node = call.kind.waitNode call.result call.bucketNumber request call.slaves ∧
        next.calls[request]? = some { call with stage := .send }) ∨
      (∃ (request place : Nat) (call : Call) (slave : UInt64) (old : WaitNode),
        event = .acknowledge request place ∧
        server.calls[request]? = some call ∧ call.slaves[place]? = some slave ∧
        call.packetId = packetId ∧ server.nodes.lookup packetId = some old ∧
        node = old.acknowledge slave ∧
        next.calls[request]? = some (call.withFate place .acknowledged) ∧
        (call.withFate place .acknowledged).fates[place]? = some .acknowledged) := by
  cases ran with
  | same | managed | answered | begun | full | checked | mixed | finished | sent | late
  | refused => exact .inl waiting
  | failed _ _ _ clears | timedOut _ _ clears =>
    obtain ⟨-, rfl⟩ | ⟨gone, -, rfl⟩ := WaitManager.clearWaitnode_cases clears
    · exact .inl waiting
    · exact .inl (lookup_of_lookup_erase waiting)
  | completed => exact .inl (lookup_of_lookup_erase waiting)
  | @inserted request call _ found stage fresh =>
    by_cases own : packetId = call.packetId
    · subst packetId
      have same : some _ = some node := (AList.lookup_insert _).symm.trans waiting
      cases same
      exact .inr (.inl ⟨request, call, found, stage, rfl, rfl, calls_withCall_self found _⟩)
    · exact .inl ((AList.lookup_insert_ne own).symm.trans waiting)
  | @marked request place call fate slave old found out slaveAt before others =>
    by_cases own : packetId = call.packetId
    · subst packetId
      have same : some _ = some node := (AList.lookup_insert _).symm.trans waiting
      cases same
      exact .inr (.inr ⟨request, place, call, slave, old, rfl, found, slaveAt, rfl, before, rfl,
        calls_withCall_self found _, Call.withFate_self out _⟩)
    · exact .inl ((AList.lookup_insert_ne own).symm.trans waiting)

section

variable (found : server.calls[request]? = some call)

include found

theorem nodeOf_eq (waiting : server.nodes.lookup call.packetId = some node) :
    server.nodeOf request = some node := by
  unfold nodeOf
  rw [found]
  exact waiting

theorem Own.of_none (fresh : server.nodes.lookup call.packetId = none) : server.Own request := by
  intro node there
  unfold nodeOf at there
  rw [found] at there
  change server.nodes.lookup call.packetId = some node at there
  rw [fresh] at there
  cases there

theorem Own.of_some (waiting : server.nodes.lookup call.packetId = some node)
    (mine : node.request = request) : server.Own request := by
  intro other there
  rw [nodeOf_eq found waiting] at there
  cases there
  exact mine

theorem nodeOf_none (gone : (server.nodeOf request).isNone = true) :
    server.nodes.lookup call.packetId = none := by
  cases waiting : server.nodes.lookup call.packetId with
  | none => rfl
  | some node =>
    rw [nodeOf_eq found waiting] at gone
    cases gone

end

theorem clearWaitnode_none (clears : manager.clearWaitnode packetId = .ok clean)
    (gone : manager.pkgWaitMap.lookup packetId = none) : clean = manager := by
  obtain ⟨-, same⟩ | ⟨node, there, -⟩ := WaitManager.clearWaitnode_cases clears
  · exact same
  · rw [gone] at there
    cases there

theorem clearWaitnode_some (clears : manager.clearWaitnode packetId = .ok clean)
    (waiting : manager.pkgWaitMap.lookup packetId = some node) :
    clean.pkgWaitMap = manager.pkgWaitMap.erase packetId := by
  obtain ⟨gone, -⟩ | ⟨other, -, rfl⟩ := WaitManager.clearWaitnode_cases clears
  · rw [waiting] at gone
    cases gone
  · rfl

def KeepsOthers (server next : DupServer) (request : Nat) : Prop :=
  ∀ (packetId : UInt32) (node : WaitNode), node.request ≠ request →
    (next.nodes.lookup packetId = some node ↔ server.nodes.lookup packetId = some node)

theorem KeepsOthers.of_eq (request : Nat)
    (nodes : next.nodes = server.nodes) :
    server.KeepsOthers next request := fun _ _ _ => by rw [nodes]

section

variable (own : server.Own request) (found : server.calls[request]? = some call)

include own found

theorem KeepsOthers.insert (mine : node.request = request)
    (nodes : next.nodes = server.nodes.insert call.packetId node) :
    server.KeepsOthers next request := by
  intro id other ne
  rw [nodes]
  by_cases same : id = call.packetId
  · subst id
    rw [AList.lookup_insert]
    constructor
    · rintro ⟨⟩
      exact absurd mine ne
    · intro old
      exact absurd (own other (nodeOf_eq found old)) ne
  · rw [AList.lookup_insert_ne same]

theorem KeepsOthers.erase
    (nodes : next.nodes = server.nodes.erase call.packetId) :
    server.KeepsOthers next request := by
  intro id other ne
  rw [nodes]
  by_cases same : id = call.packetId
  · subst id
    rw [AList.lookup_erase]
    constructor
    · intro gone
      cases gone
    · intro old
      exact absurd (own other (nodeOf_eq found old)) ne
  · rw [AList.lookup_erase_ne same]

end

theorem Vouched.node_step (vouched : server.Vouched) (narrow : Narrow ip server event)
    (ran : Step ip server event next)
    (waiting : next.nodes.lookup packetId = some node) :
    next.Vouches packetId node := by
  obtain before | ⟨request, call, found, -, own, rfl, nextFound⟩ |
    ⟨request, place, call, slave, old, rfl, found, slaveAt, rfl, before, rfl, nextFound, fate⟩ :=
      ran.node_cases waiting
  · exact (vouched.node before).later ran
  · refine ⟨{ call with stage := .send }, ?_, own, call.kind.waitNode_bucketNumber ..,
      fun slave listed => .inl ?_⟩
    · rw [WriteKind.waitNode_request]
      exact nextFound
    · rw [WriteKind.waitNode_desServerIds]
      exact WaitNode.mem_construct (vouched.fair found).few _ _ _ listed
  · -- the place of this slave is bare, and it counts as heard of from now on
    have mine : old.request = request := narrow old (nodeOf_eq found before)
    obtain ⟨latest, latestFound, ownId, bucket, held⟩ := (vouched.node before).later ran
    refine ⟨latest, latestFound, ownId, bucket, fun other listed => ?_⟩
    rw [mine, nextFound] at latestFound
    cases latestFound
    by_cases same : other = slave
    · subst other
      exact .inr ⟨place, slaveAt, fate⟩
    · exact (held other listed).imp_left (WaitNode.mem_acknowledge_of_ne · same)

theorem Vouched.all_acked (vouched : server.Vouched) {place : Nat} {fate : Fate} {slave : UInt64}
    (found : server.calls[request]? = some call) (out : call.fates[place]? = some fate)
    (slaveAt : call.slaves[place]? = some slave)
    (waiting : server.nodes.lookup call.packetId = some node)
    (last : (node.doResponse slave).2 = .success) (mine : node.request = request) :
    ∀ other ∈ call.slaves, (call.withFate place .acknowledged).AckedBy other := by
  intro other listed
  obtain ⟨owner, ownerFound, -, -, held⟩ := vouched.node waiting
  rw [mine, found] at ownerFound
  cases ownerFound
  by_cases same : other = slave
  · subst other
    exact ⟨place, slaveAt, Call.withFate_self out _⟩
  · cases held other listed with
    | inl placed =>
      have zero := WaitNode.eq_zero_of_complete last (WaitNode.mem_acknowledge_of_ne placed same)
      subst other
      exact absurd listed (vouched.fair found).nonzero
    | inr acked => exact (Call.Later.withFate call place (.inl rfl)).ackedBy acked

theorem Vouched.fair_step (vouched : server.Vouched) (narrow : Narrow ip server event)
    (ran : Step ip server event next) {other : Nat} {latest : Call}
    (latestFound : next.calls[other]? = some latest) : latest.Fair := by
  have kept {request : Nat} {call new : Call} (found : server.calls[request]? = some call)
      (later : call.Later new) (quiet : new.replies = call.replies) : new.Fair :=
    (vouched.fair found).later later (fun _ sent => .inl (quiet ▸ sent))
  have changed {request : Nat} {call new : Call} (found : server.calls[request]? = some call)
      (fair : new.Fair) (latestFound : (server.withCall request new).calls[other]? = some latest) :
      latest.Fair := forall_withCall vouched.fair found fair latestFound
  cases ran with
  | same | managed => exact vouched.fair latestFound
  | answered reply =>
    cases calls_append_cases latestFound with
    | inl before => exact vouched.fair before
    | inr new =>
      subst latest
      exact .answered _ reply
  | @begun req slaves _ duplicates slavesOf =>
    cases calls_append_cases latestFound with
    | inl before => exact vouched.fair before
    | inr new =>
      subst latest
      refine ⟨TairManager.getSlaves_ne_zero slavesOf, narrow duplicates slaves ?_,
        fun _ sent => absurd sent List.not_mem_nil⟩
      rw [slavesOf]
      rfl
  | full _ found | mixed _ found | finished _ found | failed found =>
    exact changed found ((vouched.fair found).concluded (by decide)) latestFound
  | checked _ found stage =>
    exact changed found (kept found (.withStage (by rw [stage]; decide) .insertNode) rfl) latestFound
  | inserted _ found stage =>
    exact changed found (kept found (.withStage (by rw [stage]; decide) .send) rfl) latestFound
  | sent found => exact changed found (kept found (.sent _) rfl) latestFound
  | late found | marked found =>
    exact changed found (kept found (.withFate _ _ (.inl rfl)) rfl) latestFound
  | timedOut found out | refused found out =>
    exact changed found (kept found (.withFate _ _ (.inr out)) rfl) latestFound
  | @completed request place call fate slave node found out slaveAt waiting last =>
    have mine : node.request = request := narrow node (nodeOf_eq found waiting)
    rw [mine, post_withCall] at latestFound
    have marked : (call.withFate place .acknowledged).Fair :=
      kept found (.withFate _ _ (.inl rfl)) rfl
    exact changed found
      (marked.withReply _ (vouched.all_acked found out slaveAt waiting last mine)) latestFound

theorem Vouched.step {ip : UInt64} {server next : DupServer} {event : DupEvent}
    (vouched : server.Vouched) (narrow : Narrow ip server event)
    (ran : DupServer.step ip server event = .ok next) : next.Vouched :=
  ⟨vouched.node_step narrow (step_cases ran), vouched.fair_step narrow (step_cases ran)⟩

/-- In a run without wide rows and mixed acknowledgements a client is told of a success only
after each slave of its write has acknowledged. -/
theorem acked_of_success {localIp : UInt64} {manager : TairManager} {server : DupServer}
    (reached : Reached (DupServer.step localIp) (Narrow localIp) (start manager) server)
    {request : Nat} {call : Call} (found : server.calls[request]? = some call) {reply : Reply}
    (sent : reply ∈ call.replies) (success : reply.code = ReturnCode.success.code) :
    ∀ slave ∈ call.slaves, call.AckedBy slave := by
  have vouched : server.Vouched :=
    reached.invariant Vouched (.start manager) (fun vouched narrow stepped =>
      vouched.step narrow stepped)
  exact (vouched.fair found).success reply sent success

theorem acked_of_success_pair :
    ∃ manager server call, Reached (DupServer.step 1) (Narrow 1) (start manager) server ∧
        server.calls[0]? = some call ∧ call.slaves = [2, 3] ∧
        Reply.setReturnPacket 0 ∈ call.replies ∧ ∀ slave ∈ call.slaves, call.AckedBy slave := by
  obtain ⟨manager, server, call, reached, found, pair, sent⟩ :=
    exists_call (Narrow 1) [1, 2, 3] (.write (.stored .put) :: List.replicate 5 (.proceed 0 true) ++
      [.acknowledge 0 0, .acknowledge 0 1])
      (fun call => call.slaves = [2, 3] ∧ Reply.setReturnPacket 0 ∈ call.replies) (by decide +kernel)
  exact ⟨manager, server, call, reached, found, pair, sent,
    acked_of_success reached found sent (by decide)⟩

/-- A row of four: the node has no place for the last slave, and the client is told of a
success while the packet to it is outstanding. -/
theorem success_before_last_ack :
    ∃ manager server call, Reached (DupServer.step 1) (fun _ _ => True) (start manager) server ∧
        server.calls[0]? = some call ∧ call.slaves = [2, 3, 4] ∧
        Reply.setReturnPacket ReturnCode.success.code ∈ call.replies ∧
        call.fates[2]? = some .outstanding ∧ ¬call.AckedBy 4 :=
  exists_call _ [1, 2, 3, 4] (.write (.stored .put) :: List.replicate 6 (.proceed 0 true) ++
    [.acknowledge 0 0, .acknowledge 0 1]) _ (by decide +kernel)

end DupServer

end Tair.DataServer
