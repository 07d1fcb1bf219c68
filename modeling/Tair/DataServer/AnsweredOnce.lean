/-
One answer to each write. While a request has a node nobody has answered it, and some packet of it
is to be sent or outstanding; without a node it has been answered once.
-/

import Tair.DataServer.Acknowledged

namespace Tair.DataServer

open Tair.Common (ReturnCode)
open Tair.Library
open Tair.ConfigServer (Fault)

/-! ### Nodes -/

namespace WaitNode

theorem mem_of_mem_construct {bucketNumber request : Nat} {pcode : WriteKind}
    {slaves : List UInt64} {id : UInt64}
    (listed : id ∈ (construct bucketNumber request pcode slaves).desServerIds)
    (nonzero : id ≠ 0) : id ∈ slaves := by
  have padded : id ∈ slaves ++ List.replicate maxDupCount 0 := List.mem_of_mem_take listed
  cases List.mem_append.mp padded with
  | inl real => exact real
  | inr zero => exact absurd (List.eq_of_mem_replicate zero) nonzero

theorem mem_of_mem_acknowledge {node : WaitNode} {slave id : UInt64}
    (listed : id ∈ (node.acknowledge slave).desServerIds) (real : id ≠ 0) :
    id ∈ node.desServerIds ∧ id ≠ slave := by
  obtain ⟨old, oldListed, rfl⟩ := List.mem_map.mp listed
  split_ifs at real ⊢ with same
  · exact absurd rfl real
  · exact ⟨oldListed, same⟩

theorem exists_nonzero_acknowledge {node : WaitNode} {slave : UInt64}
    (some_left : ∃ id ∈ node.desServerIds, id ≠ 0) (others : (node.doResponse slave).2 ≠ .success) :
    ∃ id ∈ (node.acknowledge slave).desServerIds, id ≠ 0 := by
  by_cases known : slave ∈ node.desServerIds
  · by_contra none_left
    push Not at none_left
    apply others
    unfold doResponse
    rw [if_neg (not_not.mpr known), if_pos]
    exact List.all_eq_true.mpr (fun id listed => decide_eq_true (none_left id listed))
  · obtain ⟨id, listed, real⟩ := some_left
    have ne : id ≠ slave := fun same => known (same ▸ listed)
    exact ⟨id, mem_acknowledge_of_ne listed ne, real⟩

end WaitNode

/-! ### Kinds -/

/-- The handlers that answer when `duplicate_data` fails. -/
def WriteKind.tellsRefusal : WriteKind → Bool
  | .put | .putnx | .remove | .removeList | .lset => true
  | _ => false

theorem WriteKind.answerDuplicated_length {kind : WriteKind} (tells : kind.tellsRefusal = true)
    (result : StoreResult) {rc : ReturnCode} (refused : rc ≠ .dupWaitRsp) :
    (kind.answerDuplicated result rc).length = 1 := by
  cases kind with
  | put | putnx | remove | removeList | lset =>
    change (if rc = .dupWaitRsp then [] else [Reply.setReturnPacket rc.code]).length = 1
    rw [if_neg refused]
    rfl
  | _ => cases tells

theorem WriteKind.answerDuplicated_wait {kind : WriteKind} (other : kind ≠ .lrem)
    (result : StoreResult) : kind.answerDuplicated result .dupWaitRsp = [] := by
  cases kind with
  | lrem => exact absurd rfl other
  | _ => rfl

/-! ### How far a request is -/

def Call.Pending (call : Call) (place : Nat) : Prop :=
  call.fates[place]? = some .outstanding ∨ (call.fates[place]? = none ∧ call.stage = .send)

def Call.NothingOut (call : Call) : Prop :=
  (call.stage = .returned ∨ call.stage = .send ∧ call.slaves.length ≤ call.fates.length) ∧
    ∀ fate ∈ call.fates, fate ≠ .outstanding

/-- Whoever is in a place of the node has a packet of this request before them. -/
structure WaitNode.Awaits (node : WaitNode) (call : Call) : Prop where
  left : ∃ id ∈ node.desServerIds, id ≠ 0
  pending : ∀ id ∈ node.desServerIds, id ≠ 0 →
    ∃ place : Nat, call.slaves[place]? = some id ∧ call.Pending place

structure Call.Ready (call : Call) : Prop where
  kind : call.kind ≠ .lrem
  copy : call.kind.copy = .ok ()
  encode : call.kind.encode = .ok ()
  bucket : call.bucketNumber < tairMaxBucketNumber
  someone : call.slaves ≠ []
  nonzero : 0 ∉ call.slaves

theorem Call.Ready.change {old new : Call} (ready : old.Ready) (kind : new.kind = old.kind)
    (bucketNumber : new.bucketNumber = old.bucketNumber) (slaves : new.slaves = old.slaves) :
    new.Ready :=
  ⟨kind ▸ ready.kind, kind ▸ ready.copy, kind ▸ ready.encode, bucketNumber ▸ ready.bucket,
    slaves ▸ ready.someone, slaves ▸ ready.nonzero⟩

def Call.Sends (call : Call) : Prop := call.stage = .send ∨ call.stage = .returned

theorem Call.not_sends {call : Call} (early : call.stage = .checkSize ∨ call.stage = .insertNode) :
    ¬call.Sends := by
  unfold Call.Sends
  cases early with
  | inl stage => simp [stage]
  | inr stage => simp [stage]

inductive DupServer.Progress (server : DupServer) (request : Nat) (call : Call) : Prop
  | early (stage : call.stage = .checkSize ∨ call.stage = .insertNode) (ready : call.Ready)
      (unanswered : call.replies = []) (unsent : call.fates = [])
  | waiting (stage : call.Sends) (ready : call.Ready) (unanswered : call.replies = [])
      (node : WaitNode) (waits : server.nodes.lookup call.packetId = some node)
      (own : node.request = request) (awaits : node.Awaits call)
  | answered (stage : call.Sends) (ready : call.stage = .send → call.Ready)
      (once : call.replies.length = 1)

namespace WaitNode.Awaits

theorem inserted {call : Call} (ready : call.Ready) (unsent : call.fates = []) (request : Nat) :
    (call.kind.waitNode call.result call.bucketNumber request call.slaves).Awaits
      { call with stage := .send } := by
  refine ⟨?_, fun id listed real => ?_⟩
  · rw [WriteKind.waitNode_desServerIds]
    have real := ready.nonzero
    cases slaves : call.slaves with
    | nil => exact absurd slaves ready.someone
    | cons first rest =>
      rw [slaves] at real
      exact ⟨first, List.mem_cons_self, fun zero => real (zero ▸ List.mem_cons_self)⟩
  · rw [WriteKind.waitNode_desServerIds] at listed
    obtain ⟨place, slaveAt⟩ := List.mem_iff_getElem?.mp (mem_of_mem_construct listed real)
    refine ⟨place, slaveAt, .inr ⟨?_, rfl⟩⟩
    change call.fates[place]? = none
    rw [unsent]
    rfl

theorem sent {node : WaitNode} {call : Call} (awaits : node.Awaits call) :
    node.Awaits { call with fates := call.fates ++ [.outstanding] } := by
  refine ⟨awaits.left, fun id listed real => ?_⟩
  obtain ⟨place, slaveAt, pending⟩ := awaits.pending id listed real
  refine ⟨place, slaveAt, ?_⟩
  cases pending with
  | inl out =>
    obtain ⟨small, -⟩ := List.getElem?_eq_some_iff.mp out
    exact .inl ((List.getElem?_append_left small).trans out)
  | inr unsent =>
    obtain ⟨none, stage⟩ := unsent
    have long : call.fates.length ≤ place := List.getElem?_eq_none_iff.mp none
    by_cases next : place = call.fates.length
    · subst place
      exact .inl List.getElem?_concat_length
    · refine .inr ⟨List.getElem?_eq_none_iff.mpr ?_, stage⟩
      rw [List.length_append, List.length_singleton]
      omega

theorem concluded {node : WaitNode} {call : Call} (awaits : node.Awaits call)
    (all : call.slaves[call.fates.length]? = none) (rc : ReturnCode) :
    node.Awaits (call.concluded rc) := by
  refine ⟨awaits.left, fun id listed real => ?_⟩
  obtain ⟨place, slaveAt, pending⟩ := awaits.pending id listed real
  refine ⟨place, slaveAt, .inl ?_⟩
  cases pending with
  | inl out => exact out
  | inr unsent =>
    have long := List.getElem?_eq_none_iff.mp unsent.1
    have enough := List.getElem?_eq_none_iff.mp all
    obtain ⟨small, -⟩ := List.getElem?_eq_some_iff.mp slaveAt
    omega

/-- What becomes of a packet does not matter to those that wait for other servers. -/
theorem pending_withFate {call : Call} {place other : Nat} {id : UInt64}
    (ne : call.slaves[place]? ≠ some id) (idAt : call.slaves[other]? = some id)
    (pending : call.Pending other) (fate : Fate) : (call.withFate place fate).Pending other := by
  have apart : place ≠ other := by
    rintro rfl
    exact ne idAt
  unfold Call.Pending
  change (call.fates.set place fate)[other]? = _ ∨ (call.fates.set place fate)[other]? = _ ∧ _
  rw [List.getElem?_set_ne apart]
  exact pending

theorem marked {node : WaitNode} {call : Call} {place : Nat} {slave : UInt64}
    (awaits : node.Awaits call) (slaveAt : call.slaves[place]? = some slave)
    (others : (node.doResponse slave).2 ≠ .success) :
    (node.acknowledge slave).Awaits (call.withFate place .acknowledged) := by
  refine ⟨exists_nonzero_acknowledge awaits.left others, fun id listed real => ?_⟩
  obtain ⟨before, ne⟩ := mem_of_mem_acknowledge listed real
  obtain ⟨other, idAt, pending⟩ := awaits.pending id before real
  refine ⟨other, idAt, pending_withFate (fun same => ?_) idAt pending _⟩
  rw [slaveAt] at same
  exact ne (Option.some.inj same).symm

theorem refused {node : WaitNode} {call : Call} {place : Nat} (awaits : node.Awaits call)
    (unknown : ∀ slave ∈ call.slaves[place]?, slave ∉ node.desServerIds) :
    node.Awaits (call.withFate place .refused) := by
  refine ⟨awaits.left, fun id listed real => ?_⟩
  obtain ⟨other, idAt, pending⟩ := awaits.pending id listed real
  exact ⟨other, idAt, pending_withFate (fun same => unknown id same listed) idAt pending _⟩

end WaitNode.Awaits

namespace DupServer

/-! ### The condition on the steps -/

def CanDuplicate (localIp : UInt64) (server : DupServer) (req : WriteRequest) : Prop :=
  req.kind ≠ .lrem ∧ req.kind.copy.isOk = true ∧ req.kind.encode.isOk = true ∧
    server.manager.getBucketNumber req.keyHash < tairMaxBucketNumber ∧
    (server.manager.getSlaves localIp req.keyFlag
      (server.manager.getBucketNumber req.keyHash)).toOption.any (fun slaves => slaves ≠ []) = true

/-- A worker is refused only where its handler tells, and only while its node is there. -/
def CanProceed (server : DupServer) (request : Nat) (call : Call) (accepted : Bool) : Prop :=
  match call.stage with
  | .checkSize => call.kind.tellsRefusal = true ∨ server.packetsMgr.isFull = false
  | .insertNode => call.kind.tellsRefusal = true ∨
      (server.nodes.lookup call.packetId).isNone = true
  | .send => accepted = true ∨ call.slaves.length ≤ call.fates.length ∨
      (call.kind.tellsRefusal = true ∧
        (server.nodeOf request).any (fun node => node.request = request) = true)
  | .returned => True

/-- The steps in which every request gets its one answer. Timeouts and refusals come when
it has been given; before that they take it away. -/
def Orderly (localIp : UInt64) (server : DupServer) : DupEvent → Prop
  | .update _ => True
  | .write req =>
    (server.manager.process localIp
      ⟨req.kind.requestKind, req.keyHash, req.hashCode⟩).isOk = true ∧
    (req.kind.duplicates req.result.rc = true ∧ needCopy req.keyFlag = true →
      CanDuplicate localIp server req)
  | .proceed request accepted =>
    ∀ call ∈ server.calls[request]?, server.CanProceed request call accepted
  | .acknowledge request _ => server.Own request
  | .timeOut request _ => (server.nodeOf request).isNone = true
  | .refuse request place => ∀ call ∈ server.calls[request]?, ∀ slave ∈ call.slaves[place]?,
      (server.nodeOf request).any (fun node => decide (slave ∈ node.desServerIds)) = false
  | .finishMigrate bucketNumber => bucketNumber < tairMaxBucketNumber

instance (localIp : UInt64) (server : DupServer) (req : WriteRequest) :
    Decidable (CanDuplicate localIp server req) := instDecidableAnd

instance (server : DupServer) (request : Nat) (call : Call) (accepted : Bool) :
    Decidable (server.CanProceed request call accepted) := by
  unfold CanProceed
  cases call.stage <;> infer_instance

instance (localIp : UInt64) (server : DupServer) :
    ∀ event : DupEvent, Decidable (Orderly localIp server event)
  | .update _ => .isTrue trivial
  | .write _ => inferInstanceAs (Decidable (_ ∧ _))
  | .proceed _ _ | .refuse _ _ => inferInstanceAs (Decidable (∀ _ ∈ _, _))
  | .acknowledge request _ => inferInstanceAs (Decidable (server.Own request))
  | .timeOut _ _ => inferInstanceAs (Decidable (_ = _))
  | .finishMigrate _ => inferInstanceAs (Decidable (_ < _))

/-! ### The invariant -/

def Stands (server : DupServer) (packetId : UInt32) (node : WaitNode) : Prop :=
  ∃ call, server.calls[node.request]? = some call ∧ call.packetId = packetId ∧
    call.replies = [] ∧ call.Sends ∧ node.bucketNumber < tairMaxBucketNumber

structure Tended (server : DupServer) : Prop where
  call : ∀ {request : Nat} {call : Call}, server.calls[request]? = some call →
    Progress server request call
  node : ∀ {packetId : UInt32} {node : WaitNode},
    server.nodes.lookup packetId = some node → server.Stands packetId node

theorem Tended.start (manager : TairManager) : (start manager).Tended := by
  refine ⟨fun found => ?_, fun waiting => ?_⟩
  · cases found
  · cases waiting

variable {server next : DupServer} {request : Nat} {call new : Call} {ip : UInt64}

theorem Progress.frame {changed : Nat} (progress : Progress server request call)
    (ne : request ≠ changed) (keeps : server.KeepsOthers next changed) :
    Progress next request call := by
  cases progress with
  | early stage ready unanswered unsent => exact .early stage ready unanswered unsent
  | waiting stage ready unanswered node waits own awaits =>
    have other : node.request ≠ changed := own ▸ ne
    exact .waiting stage ready unanswered node ((keeps _ node other).mpr waits) own awaits
  | answered stage ready once => exact .answered stage ready once

theorem Progress.same (progress : Progress server request call)
    (nodes : next.nodes = server.nodes) : Progress next request call :=
  progress.frame (Nat.succ_ne_self request).symm (.of_eq _ nodes)

section

variable {place : Nat} {node : WaitNode} {slave : UInt64} (tended : server.Tended)
  (found : server.calls[request]? = some call)

include tended found

theorem Tended.change (calls : next.calls = server.calls.set request new)
    (keeps : server.KeepsOthers next request) (progress : Progress next request new)
    (own : ∀ {id : UInt32} {node : WaitNode},
      next.nodes.lookup id = some node → node.request = request →
      next.calls[request]? = some new → next.Stands id node) : next.Tended := by
  have newFound : next.calls[request]? = some new := by
    rw [calls]
    exact List.getElem?_set_self (List.getElem?_eq_some_iff.mp found).1
  have unchanged {other : Nat} (ne : other ≠ request) :
      next.calls[other]? = server.calls[other]? := by
    rw [calls]
    exact List.getElem?_set_ne ne.symm
  refine ⟨fun {other call} callFound => ?_, fun {id node} waiting => ?_⟩
  · by_cases same : other = request
    · subst other
      rw [newFound] at callFound
      cases callFound
      exact progress
    · rw [unchanged same] at callFound
      exact (tended.call callFound).frame same keeps
  · by_cases mine : node.request = request
    · exact own waiting mine newFound
    · obtain ⟨call, callFound, rest⟩ := tended.node ((keeps _ node mine).mp waiting)
      refine ⟨call, ?_, rest⟩
      rw [unchanged mine]
      exact callFound

theorem Tended.changeCall (calls : next.calls = server.calls.set request new)
    (nodes : next.nodes = server.nodes)
    (id : new.packetId = call.packetId) (progress : Progress next request new)
    (waits : call.replies = [] → call.Sends → new.replies = [] ∧ new.Sends) : next.Tended := by
  refine tended.change found calls (.of_eq request nodes) progress
    (fun waiting mine newFound => ?_)
  rw [nodes] at waiting
  obtain ⟨known, callFound, own, unanswered, sends, bucket⟩ := tended.node waiting
  rw [mine, found] at callFound
  cases callFound
  obtain ⟨still, stage⟩ := waits unanswered sends
  exact ⟨new, mine ▸ newFound, id.trans own, still, stage, bucket⟩

theorem Tended.own (waits : server.nodes.lookup call.packetId = some node)
    (mine : node.request = request) :
    call.replies = [] ∧ call.Ready ∧ node.Awaits call ∧ call.Sends ∧
      node.bucketNumber < tairMaxBucketNumber := by
  obtain ⟨same, sameFound, -, unanswered, sends, bucket⟩ := tended.node waits
  rw [mine, found] at sameFound
  cases sameFound
  cases tended.call found with
  | early stage => exact absurd sends (Call.not_sends stage)
  | waiting stage ready _ other otherWaits _ awaits =>
    rw [waits] at otherWaits
    cases otherWaits
    exact ⟨unanswered, ready, awaits, sends, bucket⟩
  | answered _ _ once =>
    rw [unanswered] at once
    cases once

theorem Tended.early (stage : call.stage = .checkSize ∨ call.stage = .insertNode) :
    call.Ready ∧ call.replies = [] ∧ call.fates = [] := by
  cases tended.call found with
  | early _ ready waits unsent => exact ⟨ready, waits, unsent⟩
  | waiting sends => exact absurd sends (Call.not_sends stage)
  | answered sends => exact absurd sends (Call.not_sends stage)

theorem Tended.sends_of_out {fate : Fate} (out : call.fates[place]? = some fate) : call.Sends := by
  cases tended.call found with
  | early _ _ _ unsent =>
    rw [unsent] at out
    cases out
  | waiting sends => exact sends
  | answered sends => exact sends

theorem Tended.turnedAway (stage : call.stage = .checkSize ∨ call.stage = .insertNode)
    (tells : call.kind.tellsRefusal = true) {rc : ReturnCode} (refused : rc ≠ .dupWaitRsp) :
    (server.withCall request (call.concluded rc)).Tended := by
  obtain ⟨-, waits, -⟩ := tended.early found stage
  refine tended.changeCall found rfl rfl rfl (.answered (.inr rfl) (fun sending => ?_) ?_)
    (fun _ sends => absurd sends (Call.not_sends stage))
  · cases sending
  · change (call.replies ++ _).length = 1
    rw [waits]
    exact WriteKind.answerDuplicated_length tells _ refused

theorem Tended.checked (stage : call.stage = .checkSize) :
    (server.withCall request { call with stage := .insertNode }).Tended := by
  obtain ⟨ready, waits, unsent⟩ := tended.early found (.inl stage)
  exact tended.changeCall found rfl rfl rfl
    (.early (.inr rfl) (ready.change rfl rfl rfl) waits unsent)
    (fun _ sends => absurd sends (Call.not_sends (.inl stage)))

/-- Whatever the packets do, a request that keeps its answer is as far as before. -/
theorem Tended.keepsAnswer (calls : next.calls = server.calls.set request new)
    (nodes : next.nodes = server.nodes)
    (id : new.packetId = call.packetId) (once : call.replies.length = 1)
    (replies : new.replies = call.replies) (stage : new.Sends)
    (ready : new.stage = .send → new.Ready) : next.Tended := by
  refine tended.changeCall found calls nodes id (.answered stage ready ?_)
    (fun waits => ?_)
  · rw [replies]
    exact once
  · rw [waits] at once
    cases once

theorem Tended.finished (stage : call.stage = .send) (all : call.slaves[call.fates.length]? = none) :
    (server.withCall request (call.concluded .dupWaitRsp)).Tended := by
  have silent (ready : call.Ready) : (call.concluded .dupWaitRsp).replies = call.replies := by
    change call.replies ++ call.kind.answerDuplicated call.result .dupWaitRsp = _
    rw [WriteKind.answerDuplicated_wait ready.kind, List.append_nil]
  cases tended.call found with
  | early prior => exact absurd (.inl stage) (Call.not_sends prior)
  | waiting _ ready unanswered node waits own awaits =>
    have still := (silent ready).trans unanswered
    exact tended.changeCall found rfl rfl rfl
      (.waiting (.inr rfl) (ready.change rfl rfl rfl) still node waits own
        (awaits.concluded all _)) (fun _ _ => ⟨still, .inr rfl⟩)
  | answered _ ready once =>
    refine tended.keepsAnswer found rfl rfl rfl once (silent (ready stage)) (.inr rfl)
      (fun sending => ?_)
    cases sending

/-- Packets go out and come back, and whoever is waited for still has one. -/
theorem Tended.packets (sends : call.Sends) {fates : List Fate}
    (calls : next.calls = server.calls.set request { call with fates })
    (nodes : next.nodes = server.nodes)
    (waits : ∀ node, server.nodes.lookup call.packetId = some node →
      node.Awaits call → node.Awaits { call with fates }) : next.Tended := by
  cases tended.call found with
  | early prior => exact absurd sends (Call.not_sends prior)
  | waiting _ ready unanswered node waiting own awaits =>
    exact tended.changeCall found calls nodes rfl
      (.waiting sends (ready.change rfl rfl rfl) unanswered node (nodes ▸ waiting) own
        (waits node waiting awaits)) (fun _ _ => ⟨unanswered, sends⟩)
  | answered _ ready once =>
    exact tended.keepsAnswer found calls nodes rfl once rfl sends
      (fun sending => (ready sending).change rfl rfl rfl)

theorem Tended.refused (out : call.fates[place]? = some .outstanding)
    (unknown : ∀ node, server.nodes.lookup call.packetId = some node →
      ∀ slave ∈ call.slaves[place]?, slave ∉ node.desServerIds) :
    (server.withCall request (call.withFate place .refused)).Tended :=
  tended.packets found (tended.sends_of_out found out) rfl rfl
    (fun node waiting awaits => awaits.refused (unknown node waiting))

/-- An acknowledgement or a timeout that comes after the node has gone. -/
theorem Tended.late {before : Fate} (out : call.fates[place]? = some before)
    (gone : server.nodes.lookup call.packetId = none) (fate : Fate)
    (calls : next.calls = server.calls.set request (call.withFate place fate))
    (nodes : next.nodes = server.nodes) : next.Tended := by
  refine tended.packets found (tended.sends_of_out found out) calls nodes (fun node waiting => ?_)
  cases gone.symm.trans waiting

theorem Tended.changeNode (calls : next.calls = server.calls.set request new)
    (nodes : next.nodes = server.nodes.insert call.packetId node)
    (before : server.Own request) (mine : node.request = request)
    (packetId : new.packetId = call.packetId) (sends : new.Sends) (ready : new.Ready)
    (unanswered : new.replies = []) (awaits : node.Awaits new)
    (bucket : node.bucketNumber < tairMaxBucketNumber) : next.Tended := by
  have waits : next.nodes.lookup new.packetId = some node := by
    rw [nodes, packetId]
    exact AList.lookup_insert _
  refine tended.change found calls (.insert before found mine nodes)
    (.waiting sends ready unanswered node waits mine awaits)
    (fun {id other} waiting own newFound => ?_)
  by_cases same : id = call.packetId
  · rw [same, ← packetId, waits] at waiting
    cases waiting
    exact ⟨new, own ▸ newFound, packetId.trans same.symm, unanswered, sends, bucket⟩
  · -- a request has a node under its own id only
    rw [nodes, AList.lookup_insert_ne same] at waiting
    obtain ⟨known, callFound, itsId, -⟩ := tended.node waiting
    rw [own, found] at callFound
    cases callFound
    exact absurd itsId.symm same

theorem Tended.dropNode (calls : next.calls = server.calls.set request new)
    (nodes : next.nodes = server.nodes.erase call.packetId)
    (before : server.Own request) (sends : new.Sends) (ready : new.stage = .send → new.Ready)
    (once : new.replies.length = 1) : next.Tended := by
  refine tended.change found calls (.erase before found nodes) (.answered sends ready once)
    (fun {id other} waiting own _ => ?_)
  rw [nodes] at waiting
  obtain ⟨known, callFound, itsId, -⟩ := tended.node (lookup_of_lookup_erase waiting)
  rw [own, found] at callFound
  cases callFound
  rw [← itsId, AList.lookup_erase] at waiting
  cases waiting

theorem Tended.inserted (stage : call.stage = .insertNode)
    (fresh : server.nodes.lookup call.packetId = none)
    (calls : next.calls = server.calls.set request { call with stage := .send })
    (nodes : next.nodes = server.nodes.insert call.packetId
      (call.kind.waitNode call.result call.bucketNumber request call.slaves)) : next.Tended := by
  obtain ⟨ready, waits, unsent⟩ := tended.early found (.inr stage)
  refine tended.changeNode found calls nodes (.of_none found fresh) (call.kind.waitNode_request ..)
    rfl (.inl rfl) (ready.change rfl rfl rfl) waits (.inserted ready unsent request) ?_
  rw [WriteKind.waitNode_bucketNumber]
  exact ready.bucket

theorem Tended.marked (slaveAt : call.slaves[place]? = some slave)
    (waiting : server.nodes.lookup call.packetId = some node)
    (others : (node.doResponse slave).2 ≠ .success) (own : server.Own request)
    (calls : next.calls = server.calls.set request (call.withFate place .acknowledged))
    (nodes : next.nodes = server.nodes.insert call.packetId
      (node.acknowledge slave)) : next.Tended := by
  have mine : node.request = request := own node (nodeOf_eq found waiting)
  obtain ⟨waits, ready, awaits, sends, bucket⟩ := tended.own found waiting mine
  exact tended.changeNode found calls nodes own mine rfl sends (ready.change rfl rfl rfl)
    waits (awaits.marked slaveAt others) bucket

theorem Tended.completed (waiting : server.nodes.lookup call.packetId = some node)
    (own : server.Own request) {reply : Reply} (calls : next.calls =
      server.calls.set request ((call.withFate place .acknowledged).withReply reply))
    (nodes : next.nodes = server.nodes.erase call.packetId) :
    next.Tended := by
  have mine : node.request = request := own node (nodeOf_eq found waiting)
  obtain ⟨waits, ready, -, sends, -⟩ := tended.own found waiting mine
  refine tended.dropNode found calls nodes own sends (fun _ => ready.change rfl rfl rfl) ?_
  change (call.replies ++ [reply]).length = 1
  rw [waits]
  rfl

theorem Tended.failed (waiting : server.nodes.lookup call.packetId = some node)
    (mine : node.request = request) (tells : call.kind.tellsRefusal = true)
    (calls : next.calls = server.calls.set request (call.concluded .duplicateBusy))
    (nodes : next.nodes = server.nodes.erase call.packetId) :
    next.Tended := by
  obtain ⟨waits, -⟩ := tended.own found waiting mine
  refine tended.dropNode found calls nodes (.of_some found waiting mine) (.inr rfl) (fun sending => ?_) ?_
  · cases sending
  · change (call.replies ++ _).length = 1
    rw [waits]
    exact WriteKind.answerDuplicated_length tells _ (by decide)

end

theorem Tended.append (tended : server.Tended) (calls : next.calls = server.calls ++ [new])
    (nodes : next.nodes = server.nodes) (progress : ∀ request, Progress next request new) :
    next.Tended := by
  refine ⟨fun {request call} found => ?_, fun {id node} waiting => ?_⟩
  · rw [calls] at found
    cases calls_append_cases found with
    | inl before => exact (tended.call before).same nodes
    | inr same =>
      subst call
      exact progress request
  · rw [nodes] at waiting
    obtain ⟨call, found, rest⟩ := tended.node waiting
    refine ⟨call, ?_, rest⟩
    rw [calls]
    exact calls_append_of_some found new

theorem eq_ok_of_isOk {result : Except Fault Unit} (done : result.isOk = true) :
    result = .ok () := by
  cases result with
  | ok => rfl
  | error => cases done

theorem ready_begun {req : WriteRequest} {slaves : List UInt64} {id : UInt32}
    (can : CanDuplicate ip server req) (slavesOf : server.manager.getSlaves ip req.keyFlag
      (server.manager.getBucketNumber req.keyHash) = .ok slaves) :
    (Call.begun req (server.manager.getBucketNumber req.keyHash) slaves id).Ready := by
  obtain ⟨kind, copy, encode, bucket, someone⟩ := can
  rw [slavesOf] at someone
  exact ⟨kind, eq_ok_of_isOk copy, eq_ok_of_isOk encode, bucket, of_decide_eq_true someone,
    TairManager.getSlaves_ne_zero slavesOf⟩

theorem CanProceed.of_full {accepted : Bool} (can : server.CanProceed request call accepted)
    (stage : call.stage = .checkSize) (isFull : server.packetsMgr.isFull = true) :
    call.kind.tellsRefusal = true := by
  unfold CanProceed at can
  rw [stage, isFull] at can
  exact can.resolve_right Bool.true_eq_false_eq_False

theorem CanProceed.of_used {accepted : Bool} {other : WaitNode}
    (can : server.CanProceed request call accepted) (stage : call.stage = .insertNode)
    (used : server.nodes.lookup call.packetId = some other) :
    call.kind.tellsRefusal = true := by
  unfold CanProceed at can
  rw [stage, used] at can
  exact can.resolve_right Bool.false_ne_true

theorem CanProceed.of_failure {slave : UInt64} (can : server.CanProceed request call false)
    (found : server.calls[request]? = some call) (stage : call.stage = .send)
    (more : call.slaves[call.fates.length]? = some slave) :
    call.kind.tellsRefusal = true ∧ ∃ node,
      server.nodes.lookup call.packetId = some node ∧ node.request = request := by
  unfold CanProceed at can
  rw [stage] at can
  obtain told | short | ⟨tells, mine⟩ := can
  · cases told
  · rw [List.getElem?_eq_none_iff.mpr short] at more
    cases more
  · obtain ⟨node, there, own⟩ := (Option.any_eq_true _ _).mp mine
    unfold nodeOf at there
    rw [found] at there
    exact ⟨tells, node, there, of_decide_eq_true own⟩

theorem Tended.step {ip : UInt64} {server next : DupServer} {event : DupEvent}
    (tended : server.Tended) (orderly : Orderly ip server event)
    (ran : Step ip server event next) : next.Tended := by
  cases ran with
  | same => exact tended
  | managed => exact ⟨fun found => (tended.call found).same rfl, tended.node⟩
  | answered =>
    refine tended.append rfl rfl (fun _ => .answered (.inr rfl) (fun sending => ?_) rfl)
    cases sending
  | begun _ duplicates slavesOf =>
    exact tended.append rfl rfl (fun _ =>
      .early (.inl rfl) (ready_begun (orderly.2 duplicates) slavesOf) rfl rfl)
  | full _ found stage isFull =>
    exact tended.turnedAway found (.inl stage) ((orderly _ found).of_full stage isFull) (by decide)
  | checked _ found stage => exact tended.checked found stage
  | mixed _ found stage used =>
    exact tended.turnedAway found (.inr stage) ((orderly _ found).of_used stage used) (by decide)
  | inserted _ found stage fresh => exact tended.inserted found stage fresh rfl rfl
  | finished _ found stage all => exact tended.finished found stage all
  | sent found stage =>
    exact tended.packets found (.inl stage) rfl rfl (fun _ _ awaits => awaits.sent)
  | failed found stage more clears =>
    obtain ⟨tells, node, waiting, mine⟩ := (orderly _ found).of_failure found stage more
    exact tended.failed found waiting mine tells rfl (clearWaitnode_some clears waiting)
  | late found out _ gone => exact tended.late found out gone .acknowledged rfl rfl
  | marked found _ slaveAt waiting others =>
    exact tended.marked found slaveAt waiting others orderly rfl rfl
  | @completed request place call _ slave node found _ _ waiting last =>
    have mine : node.request = request := orderly node (nodeOf_eq found waiting)
    rw [mine, post_withCall]
    exact tended.completed found waiting orderly rfl rfl
  | timedOut found out clears =>
    have gone := nodeOf_none found orderly
    refine tended.late found out gone .timedOut rfl ?_
    exact congrArg WaitManager.pkgWaitMap (clearWaitnode_none clears gone)
  | @refused request place call found out =>
    refine tended.refused found out (fun node waiting slave slaveAt listed => ?_)
    have unknown := orderly call found slave slaveAt
    rw [nodeOf_eq found waiting] at unknown
    exact of_decide_eq_false unknown listed

/-! ### No step stops the server -/

theorem changeBucketCount_of_small (manager : WaitManager) {bucketNumber : Nat}
    (small : bucketNumber < tairMaxBucketNumber) (change : Nat → Nat) :
    ∃ counted, manager.changeBucketCount bucketNumber change = .ok counted := by
  unfold WaitManager.changeBucketCount
  rw [if_pos small]
  exact ⟨_, rfl⟩

theorem clearWaitnode_ok {manager : WaitManager} {id : UInt32}
    (small : ∀ node, manager.pkgWaitMap.lookup id = some node →
      node.bucketNumber < tairMaxBucketNumber) : ∃ clean, manager.clearWaitnode id = .ok clean := by
  unfold WaitManager.clearWaitnode
  cases waiting : manager.pkgWaitMap.lookup id with
  | none => exact ⟨_, rfl⟩
  | some node =>
    obtain ⟨counted, changed⟩ := changeBucketCount_of_small manager (small node waiting) (· - 1)
    dsimp only
    rw [changed]
    exact ⟨_, rfl⟩

theorem doResponse_ok {manager : WaitManager} {bucketNumber : Nat} {id : UInt32}
    (small : ∀ node, manager.pkgWaitMap.lookup id = some node →
      bucketNumber < tairMaxBucketNumber) (slave : UInt64) :
    ∃ responded, manager.doResponse bucketNumber slave id = .ok responded := by
  unfold WaitManager.doResponse
  cases waiting : manager.pkgWaitMap.lookup id with
  | none => exact ⟨_, rfl⟩
  | some node =>
    obtain ⟨counted, changed⟩ := changeBucketCount_of_small manager (small node waiting) (· - 1)
    dsimp only
    rw [changed]
    split_ifs
    · exact ⟨_, rfl⟩
    · exact ⟨_, rfl⟩

theorem write_ok {req : WriteRequest} (orderly : Orderly ip server (.write req)) :
    ∃ next, server.write ip req = .ok next := by
  obtain ⟨processes, can⟩ := orderly
  unfold write
  cases processed : server.manager.process ip
      ⟨req.kind.requestKind, req.keyHash, req.hashCode⟩ with
  | error fault =>
    rw [processed] at processes
    cases processes
  | ok answer =>
    cases answer with
    | serverCanNotWork | shouldProxy => exact ⟨_, rfl⟩
    | servedLocally =>
      change ∃ next, (if req.kind.duplicates req.result.rc = true ∧
        needCopy req.keyFlag = true then _ else _) = Except.ok next
      by_cases duplicates : req.kind.duplicates req.result.rc = true ∧
          needCopy req.keyFlag = true
      · rw [if_pos duplicates]
        obtain ⟨-, -, -, -, someone⟩ := can duplicates
        cases slavesOf : server.manager.getSlaves ip req.keyFlag
            (server.manager.getBucketNumber req.keyHash) with
        | error fault =>
          rw [slavesOf] at someone
          cases someone
        | ok slaves => exact ⟨_, rfl⟩
      · rw [if_neg duplicates]
        exact ⟨_, rfl⟩

theorem Tended.acknowledge_ok (tended : server.Tended) (own : server.Own request) (place : Nat) :
    ∃ next, server.acknowledge request place = .ok next := by
  unfold acknowledge
  cases found : server.calls[request]? with
  | none => exact ⟨_, rfl⟩
  | some call =>
    dsimp only
    cases call.fates[place]? with
    | none => exact ⟨_, rfl⟩
    | some fate =>
      cases call.slaves[place]? with
      | none => exact ⟨_, rfl⟩
      | some slave =>
        dsimp only
        have small (node : WaitNode)
            (waiting : server.nodes.lookup call.packetId = some node) :
            call.bucketNumber < tairMaxBucketNumber := by
          have mine : node.request = request := own node (nodeOf_eq found waiting)
          obtain ⟨-, ready, -⟩ := tended.own found waiting mine
          exact ready.bucket
        obtain ⟨⟨answered, rc, completed⟩, answers⟩ := doResponse_ok small slave
        rw [answers]
        cases completed with
        | none => exact ⟨_, rfl⟩
        | some node => exact ⟨_, rfl⟩

theorem insertNode_ok {manager : WaitManager} {bucketNumber : Nat}
    (small : bucketNumber < tairMaxBucketNumber) (node : WaitNode) (id : UInt32) :
    ∃ inserted, manager.insertNode node bucketNumber id = .ok inserted := by
  unfold WaitManager.insertNode
  cases manager.pkgWaitMap.lookup id with
  | some other => exact ⟨_, rfl⟩
  | none =>
    obtain ⟨counted, changed⟩ := changeBucketCount_of_small manager small (· + 1)
    dsimp only
    rw [changed]
    exact ⟨_, rfl⟩

theorem Tended.ready_of_send (tended : server.Tended) (found : server.calls[request]? = some call)
    (stage : call.stage = .send) : call.Ready := by
  cases tended.call found with
  | early _ ready => exact ready
  | waiting _ ready => exact ready
  | answered _ ready => exact ready stage

theorem Tended.sendPacket_ok (tended : server.Tended) (found : server.calls[request]? = some call)
    (stage : call.stage = .send) (accepted : Bool) :
    ∃ next, server.sendPacket request call accepted = .ok next := by
  have ready := tended.ready_of_send found stage
  unfold sendPacket
  cases call.slaves[call.fates.length]? with
  | none => exact ⟨_, rfl⟩
  | some slave =>
    dsimp only
    rw [ready.copy]
    cases accepted with
    | true =>
      rw [ready.encode]
      exact ⟨_, rfl⟩
    | false =>
      obtain ⟨clean, clears⟩ : ∃ clean,
          server.packetsMgr.clearWaitnode call.packetId = .ok clean := by
        refine clearWaitnode_ok (fun node waiting => ?_)
        obtain ⟨-, -, -, -, -, bucket⟩ := tended.node waiting
        exact bucket
      rw [clears]
      exact ⟨_, rfl⟩

theorem Tended.proceed_ok (tended : server.Tended) (request : Nat) (accepted : Bool) :
    ∃ next, server.proceed request accepted = .ok next := by
  unfold proceed
  cases found : server.calls[request]? with
  | none => exact ⟨_, rfl⟩
  | some call =>
    dsimp only
    cases stage : call.stage with
    | checkSize =>
      dsimp only
      split_ifs
      · exact ⟨_, rfl⟩
      · exact ⟨_, rfl⟩
    | insertNode =>
      obtain ⟨ready, -, -⟩ := tended.early found (.inr stage)
      obtain ⟨⟨added, rc⟩, inserts⟩ := @insertNode_ok server.packetsMgr _ ready.bucket
        (call.kind.waitNode call.result call.bucketNumber request call.slaves) call.packetId
      dsimp only
      rw [inserts]
      change ∃ next, (if rc = .success then _ else _) = Except.ok next
      split_ifs
      · exact ⟨_, rfl⟩
      · exact ⟨_, rfl⟩
    | send => exact tended.sendPacket_ok found stage accepted
    | returned => exact ⟨_, rfl⟩

theorem timeOut_ok (gone : (server.nodeOf request).isNone = true) (place : Nat) :
    ∃ next, server.timeOut request place = .ok next := by
  unfold timeOut
  cases found : server.calls[request]? with
  | none => exact ⟨_, rfl⟩
  | some call =>
    dsimp only
    obtain ⟨clean, clears⟩ : ∃ clean,
        server.packetsMgr.doTimeout call.packetId = .ok clean := by
      refine clearWaitnode_ok (fun node waiting => ?_)
      rw [nodeOf_none found gone] at waiting
      cases waiting
    rw [clears]
    split_ifs
    · exact ⟨_, rfl⟩
    · exact ⟨_, rfl⟩

theorem Tended.step_ok (tended : server.Tended) {event : DupEvent}
    (orderly : Orderly ip server event) : ∃ next, DupServer.step ip server event = .ok next := by
  cases event with
  | update manager => exact ⟨_, rfl⟩
  | write req => exact write_ok orderly
  | proceed request accepted => exact tended.proceed_ok request accepted
  | acknowledge request place => exact tended.acknowledge_ok orderly place
  | timeOut request place => exact timeOut_ok orderly place
  | refuse request place => exact ⟨_, rfl⟩
  | finishMigrate bucketNumber =>
    change ∃ next, server.finishMigrate bucketNumber = .ok next
    have small : bucketNumber < tairMaxBucketNumber := orderly
    unfold finishMigrate WaitManager.isBucketFree
    rw [if_pos small]
    exact ⟨_, rfl⟩

/-! ### One answer -/

theorem Progress.once (progress : Progress server request call) : call.replies.length ≤ 1 := by
  cases progress with
  | early _ _ waits => rw [waits]; exact Nat.zero_le 1
  | waiting _ _ waits => rw [waits]; exact Nat.zero_le 1
  | answered _ _ once => exact once.le

theorem Progress.answered_of_nothingOut (progress : Progress server request call)
    (nothing : call.NothingOut) : call.replies.length = 1 := by
  obtain ⟨done, settled⟩ := nothing
  cases progress with
  | early stage => exact absurd (done.symm.imp And.left id) (Call.not_sends stage)
  | waiting _ _ _ node _ _ awaits =>
    obtain ⟨id, listed, real⟩ := awaits.left
    obtain ⟨place, idAt, out | ⟨unsent, sending⟩⟩ := awaits.pending id listed real
    · exact absurd rfl (settled _ (List.mem_of_getElem? out))
    · obtain ⟨small, -⟩ := List.getElem?_eq_some_iff.mp idAt
      have long := List.getElem?_eq_none_iff.mp unsent
      cases done with
      | inl gave =>
        rw [sending] at gave
        cases gave
      | inr all => omega
  | answered _ _ once => exact once

/-- In an orderly run the server never stops, no client gets two answers, and whoever has no
packet outstanding has got one. -/
theorem answered_once {localIp : UInt64} {manager : TairManager} {server : DupServer}
    (reached : Reached (DupServer.step localIp) (Orderly localIp) (start manager) server) :
    (∀ event, Orderly localIp server event →
      ∃ next, DupServer.step localIp server event = .ok next) ∧
    ∀ (request : Nat) (call : Call), server.calls[request]? = some call →
      call.replies.length ≤ 1 ∧ (call.NothingOut → call.replies.length = 1) := by
  have tended : server.Tended :=
    reached.invariant Tended (.start manager) (fun tended orderly stepped =>
      tended.step orderly (step_cases stepped))
  refine ⟨fun event orderly => tended.step_ok orderly, fun request call found => ?_⟩
  have progress := tended.call found
  exact ⟨progress.once, progress.answered_of_nothingOut⟩

theorem answered_once_pair :
    ∃ manager server call, Reached (DupServer.step 1) (Orderly 1) (start manager) server ∧
        server.calls[0]? = some call ∧ call.slaves = [2, 3] ∧ call.NothingOut ∧
        call.replies.length = 1 := by
  obtain ⟨manager, server, call, reached, found, pair, returned, fates⟩ :=
    exists_call (Orderly 1) [1, 2, 3] (.write (.stored .put) ::
      List.replicate 5 (.proceed 0 true) ++ [.acknowledge 0 0, .acknowledge 0 1])
      (fun call => call.slaves = [2, 3] ∧ call.stage = .returned ∧
        call.fates = [.acknowledged, .acknowledged]) (by decide +kernel)
  have nothing : call.NothingOut := by
    refine ⟨.inl returned, ?_⟩
    rw [fates]
    decide
  exact ⟨manager, server, call, reached, found, pair, nothing,
    ((answered_once reached).2 0 call found).2 nothing⟩

/-- `lrem` is answered by its handler and by its node. A `put` whose packet times out is not
answered at all. -/
theorem answered_twice_and_never :
    (∃ manager server call, Reached (DupServer.step 1) (fun _ _ => True) (start manager) server ∧
        server.calls[0]? = some call ∧ call.replies.length = 2) ∧
    ∃ manager server call, Reached (DupServer.step 1) (fun _ _ => True) (start manager) server ∧
        server.calls[0]? = some call ∧ call.NothingOut ∧ call.replies = [] := by
  constructor
  · exact exists_call _ [1, 2] (.write (.stored .lrem) :: List.replicate 4 (.proceed 0 true) ++
      [.acknowledge 0 0]) _ (by decide +kernel)
  · obtain ⟨manager, server, call, reached, found, returned, fates, unanswered⟩ :=
      exists_call (fun _ _ => True) [1, 2] (.write (.stored .put) ::
        List.replicate 4 (.proceed 0 true) ++ [.timeOut 0 0])
        (fun call => call.stage = .returned ∧ call.fates = [.timedOut] ∧ call.replies = [])
        (by decide +kernel)
    refine ⟨manager, server, call, reached, found, ⟨.inl returned, ?_⟩, unanswered⟩
    rw [fates]
    decide

end DupServer

end Tair.DataServer
