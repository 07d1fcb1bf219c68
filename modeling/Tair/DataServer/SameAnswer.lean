/-
Answers with and without duplicates: what a handler builds from what the storage has returned, and
what is built from the node after the last acknowledgement.
-/

import Tair.DataServer.Acknowledged

namespace Tair.DataServer

open Tair.Common (ReturnCode)
open Tair.Library
open Tair.ConfigServer (Fault)

namespace WriteKind

def replicated (kind : WriteKind) (result : StoreResult) : Reply :=
  rspPacket (kind.waitNode result 0 0 [])

def Reports (kind : WriteKind) (result : StoreResult) (reply : Reply) : Prop :=
  reply.code = result.rc.code ∧
    match kind with
    | .lrem | .hmset | .zremrangebyrank | .zremrangebyscore => reply.retnum = some result.retnum
    | .spop => reply.value = result.value
    | .lrpush _ _ | .lrpushLimit _ _ =>
      reply.pushedNum = result.pushedNum ∧ reply.listLen = result.listLen
    | .lrpop _ => reply.values = result.values
    | .put | .putnx | .remove | .removeList | .ltrim | .lset | .hset | .hsetnx | .hdel | .srem
    | .sadd | .saddMulti | .sremMulti | .zadd | .zrem => True

def Transparent (kind : WriteKind) (result : StoreResult) : Prop :=
  match kind with
  | .ltrim | .lrem | .hsetnx => False
  | .removeList => result.rc = .success
  | .hmset => result.retnum = 0
  | .spop => result.value = []
  | .lrpush _ _ | .lrpushLimit _ _ => result.pushedNum = 0 ∧ result.listLen = 0
  | .lrpop _ => result.values = []
  | .put | .putnx | .remove | .lset | .hset | .hdel | .srem | .sadd | .saddMulti | .sremMulti
  | .zadd | .zrem | .zremrangebyrank | .zremrangebyscore => True

theorem replicated_removeList_iff {result : StoreResult}
    (duplicates : removeList.duplicates result.rc = true) :
    (removeList.replicated result = removeList.answer result ∧
      removeList.Reports result (removeList.replicated result)) ↔ result.rc = .success := by
  have either : result.rc = .success ∨ result.rc = .dataNotExist := of_decide_eq_true duplicates
  constructor
  · rintro ⟨-, code, -⟩
    cases either with
    | inl success => exact success
    | inr absent =>
      rw [absent] at code
      cases code
  · intro success
    unfold replicated answer Reports
    rw [success]
    exact ⟨rfl, rfl, trivial⟩

/-- The answers agree, with each other and with the storage, on these results only. -/
theorem replicated_eq_answer_iff {kind : WriteKind} {result : StoreResult}
    (duplicates : kind.duplicates result.rc = true) :
    (kind.replicated result = kind.answer result ∧ kind.Reports result (kind.replicated result)) ↔
      kind.Transparent result := by
  by_cases list : kind = .removeList
  · subst kind
    exact replicated_removeList_iff duplicates
  by_cases single : kind = .remove
  · subst kind
    exact iff_of_true ⟨rfl, rfl, trivial⟩ trivial
  have success : result.rc = .success := by
    cases kind with
    | remove => exact absurd rfl single
    | removeList => exact absurd rfl list
    | _ => exact of_decide_eq_true duplicates
  obtain ⟨rc, retnum, pushedNum, listLen, values, value⟩ := result
  dsimp only at success
  subst rc
  cases kind with
  | remove => exact absurd rfl single
  | removeList => exact absurd rfl list
  | put | putnx | lset | hset | hdel | srem | sadd | saddMulti | sremMulti | zadd | zrem =>
    exact iff_of_true ⟨rfl, rfl, trivial⟩ trivial
  | zremrangebyrank | zremrangebyscore => exact iff_of_true ⟨rfl, rfl, rfl⟩ trivial
  | ltrim | hsetnx =>
    refine iff_of_false (fun agree => ?_) id
    cases congrArg Reply.pcode agree.1
  | lrem =>
    refine iff_of_false (fun agree => ?_) id
    cases congrArg Reply.retnum agree.1
  | hmset =>
    constructor
    · intro agree
      exact (Option.some.inj (congrArg Reply.retnum agree.1)).symm
    · rintro ⟨⟩
      exact ⟨rfl, rfl, rfl⟩
  | spop =>
    constructor
    · intro agree
      exact (congrArg Reply.value agree.1).symm
    · rintro ⟨⟩
      exact ⟨rfl, rfl, rfl⟩
  | lrpush en lr =>
    constructor
    · intro agree
      exact ⟨Int.ofNat.inj (congrArg Reply.pushedNum agree.1),
        Int.ofNat.inj (congrArg Reply.listLen agree.1)⟩
    · rintro ⟨⟨⟩, ⟨⟩⟩
      exact ⟨rfl, rfl, rfl, rfl⟩
  | lrpushLimit en lr =>
    constructor
    · intro agree
      exact ⟨(Int.ofNat.inj (congrArg Reply.pushedNum agree.1)).symm,
        (Int.ofNat.inj (congrArg Reply.listLen agree.1)).symm⟩
    · rintro ⟨⟨⟩, ⟨⟩⟩
      exact ⟨rfl, rfl, rfl, rfl⟩
  | lrpop lr =>
    constructor
    · intro agree
      exact congrArg Reply.values agree.1
    · rintro ⟨⟩
      exact ⟨rfl, rfl, rfl⟩

end WriteKind

namespace DupServer

def Carries (server : DupServer) (node : WaitNode) : Prop :=
  ∃ call, server.calls[node.request]? = some call ∧
    call.kind.duplicates call.result.rc = true ∧
    rspPacket node = call.kind.replicated call.result

structure Carried (server : DupServer) : Prop where
  node : ∀ {packetId : UInt32} {node : WaitNode},
    server.nodes.lookup packetId = some node → server.Carries node
  duplicates : ∀ {request : Nat} {call : Call}, server.calls[request]? = some call →
    call.stage = .returned ∨ call.kind.duplicates call.result.rc = true

theorem Carried.start (manager : TairManager) : (start manager).Carried := by
  refine ⟨fun waiting => ?_, fun found => ?_⟩
  · cases waiting
  · cases found

theorem Carries.later {ip : UInt64} {server next : DupServer} {event : DupEvent}
    {node : WaitNode} (carries : server.Carries node) (ran : Step ip server event next) :
    next.Carries node := by
  obtain ⟨call, found, duplicates, answer⟩ := carries
  obtain ⟨latest, latestFound, later⟩ := ran.later found
  refine ⟨latest, latestFound, ?_, ?_⟩
  · rw [later.kind, later.result]
    exact duplicates
  · rw [later.kind, later.result]
    exact answer

theorem Carried.step {ip : UInt64} {server next : DupServer} {event : DupEvent}
    (carried : server.Carried) (ran : DupServer.step ip server event = .ok next) :
    next.Carried := by
  have ran := step_cases ran
  refine ⟨fun waiting => ?_, fun {request latest} latestFound => ?_⟩
  · obtain before | ⟨request, call, found, stage, -, rfl, nextFound⟩ |
      ⟨request, place, call, slave, old, rfl, -, -, -, before, rfl, -, -⟩ :=
        ran.node_cases waiting
    · exact (carried.node before).later ran
    · refine ⟨{ call with stage := .send }, ?_, ?_, by cases call.kind <;> rfl⟩
      · rw [WriteKind.waitNode_request]
        exact nextFound
      refine (carried.duplicates found).resolve_left (fun gave => ?_)
      rw [stage] at gave
      cases gave
    · exact (carried.node before).later ran
  · obtain ⟨old, found, later⟩ | ⟨req, reply, rfl⟩ | ⟨req, _, _, _, duplicates, rfl⟩ :=
      ran.earlier latestFound
    · rw [later.kind, later.result]
      exact (carried.duplicates found).imp_left later.returned
    · exact .inl rfl
    · exact .inr duplicates

/-- An acknowledgement answers nobody, or the request of the node it completes. -/
theorem Step.replies_of_acknowledge {ip : UInt64} {server next : DupServer}
    {request place : Nat} (ran : Step ip server (.acknowledge request place) next)
    {other : Nat} {call latest : Call} (found : server.calls[other]? = some call)
    (latestFound : next.calls[other]? = some latest) :
    latest.replies = call.replies ∨ ∃ (id : UInt32) (node : WaitNode),
      server.nodes.lookup id = some node ∧ node.request = other ∧
      latest.replies = call.replies ++ [rspPacket node] := by
  -- the mark of the packet changes no reply
  have marks {old middle : Call} {place : Nat} (oldFound : server.calls[request]? = some old)
      (middleFound : (server.withCall request
        (old.withFate place .acknowledged)).calls[other]? = some middle) :
      middle.replies = call.replies := by
    by_cases same : request = other
    · subst other
      rw [oldFound] at found
      cases found
      rw [calls_withCall_self oldFound] at middleFound
      cases middleFound
      rfl
    · rw [calls_withCall_of_ne _ _ same] at middleFound
      have unchanged := found.symm.trans middleFound
      cases unchanged
      rfl
  cases ran with
  | same | managed =>
    left
    have unchanged := found.symm.trans latestFound
    cases unchanged
    rfl
  | late oldFound => exact .inl (marks oldFound latestFound)
  | marked oldFound => exact .inl (marks oldFound latestFound)
  | @completed _ _ old _ slave node oldFound _ _ waiting _ =>
    by_cases mine : node.request = other
    · subst other
      rw [calls_post_self] at latestFound
      obtain ⟨middle, middleFound, rfl⟩ := Option.map_eq_some_iff.mp latestFound
      refine .inr ⟨_, node, waiting, rfl, ?_⟩
      change middle.replies ++ _ = _
      rw [marks oldFound middleFound]
      rfl
    · rw [calls_post_of_ne _ _ mine] at latestFound
      exact .inl (marks oldFound latestFound)

/-- In every run the answer after the last acknowledgement is the one the handler would
have given, with the results of the storage, for these results and no others. -/
theorem replicated_answer_iff {localIp : UInt64} {manager : TairManager} {server next : DupServer}
    (reached : Reached (DupServer.step localIp) (fun _ _ => True) (start manager) server)
    {request place : Nat}
    (stepped : DupServer.step localIp server (.acknowledge request place) = .ok next)
    {other : Nat} {call latest : Call} {reply : Reply} (found : server.calls[other]? = some call)
    (latestFound : next.calls[other]? = some latest)
    (answered : latest.replies = call.replies ++ [reply]) :
    (reply = call.kind.answer call.result ∧ call.kind.Reports call.result reply) ↔
      call.kind.Transparent call.result := by
  have carried : server.Carried :=
    reached.invariant Carried (.start manager) (fun carried _ stepped => carried.step stepped)
  obtain silent | ⟨packetId, node, waiting, mine, told⟩ :=
    (step_cases stepped).replies_of_acknowledge found latestFound
  · have longer := congrArg List.length answered
    rw [silent, List.length_append, List.length_singleton] at longer
    omega
  · obtain ⟨same, sameFound, duplicates, carries⟩ := carried.node waiting
    rw [mine, found] at sameFound
    cases sameFound
    rw [answered] at told
    have fromNode : reply = rspPacket node :=
      List.singleton_inj.mp (List.append_cancel_left told)
    rw [fromNode, carries]
    exact WriteKind.replicated_eq_answer_iff duplicates

theorem replicated_answer_iff_put :
    ∃ (manager : TairManager) (server next : DupServer) (call latest : Call),
      Reached (DupServer.step 1) (fun _ _ => True) (start manager) server ∧
        DupServer.step 1 server (.acknowledge 0 0) = .ok next ∧
        server.calls[0]? = some call ∧ next.calls[0]? = some latest ∧
        latest.replies = call.replies ++ [.setReturnPacket 0] ∧
        ((Reply.setReturnPacket 0 = call.kind.answer call.result ∧
          call.kind.Reports call.result (.setReturnPacket 0)) ↔
            call.kind.Transparent call.result) := by
  obtain ⟨begun, server, mapped, reached, next, stepped, call, found, latest, latestFound,
      answered⟩ : ∃ begun server, withRow 1 [1, 2] = .ok begun ∧
      Reached (DupServer.step 1) (fun _ _ => True) begun server ∧
        ∃ next, DupServer.step 1 server (.acknowledge 0 0) = .ok next ∧
        ∃ call, server.calls[0]? = some call ∧ ∃ latest, next.calls[0]? = some latest ∧
          latest.replies = call.replies ++ [.setReturnPacket 0] :=
    exists_reached (.write (.stored .put) :: List.replicate 4 (.proceed 0 true)) (by decide +kernel)
  obtain ⟨manager, -, rfl⟩ := ok_of_map mapped
  exact ⟨manager, server, next, call, latest, reached, stepped, found, latestFound, answered,
    replicated_answer_iff reached stepped found latestFound answered⟩

def pushed : WriteRequest :=
  { WriteRequest.stored (.lrpushLimit .notExist .left) with
    result := ⟨.success, 0, 1, 1, [], []⟩ }

/-- The client of a replicated push is told of no value and an empty list. -/
theorem replicated_push_loses_numbers :
    ∃ manager server call, Reached (DupServer.step 1) (fun _ _ => True) (start manager) server ∧
        server.calls[0]? = some call ∧ call.kind = pushed.kind ∧ call.result = pushed.result ∧
        call.replies = [.blank (.lrpush .notExist .left)] ∧
        (pushed.kind.answer pushed.result).pushedNum = 1 ∧
        (pushed.kind.answer pushed.result).listLen = 1 :=
  exists_call _ [1, 2] (.write pushed :: List.replicate 4 (.proceed 0 true) ++ [.acknowledge 0 0])
    _ (by decide +kernel)

end DupServer

end Tair.DataServer
