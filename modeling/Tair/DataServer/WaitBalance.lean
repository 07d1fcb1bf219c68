/-
The books of the wait nodes. Workers add nodes, slaves acknowledge under the bucket that their
packet named, late and repeatedly, and nodes time out. Nodes are known by the order in which they
were made, which tells freed ones from later ones under the same id.
-/

import Tair.DataServer.AnsweredOnce

namespace Tair.DataServer

open Tair.Common (ReturnCode)
open Tair.ConfigServer (Fault)
open Tair.Library

/-- `sent` has the ids and the buckets of the packets that went out, and `freed` the nodes that
are gone. -/
structure WaitState where
  packetsMgr : WaitManager
  made : Nat
  sent : List (UInt32 × Nat)
  freed : List Nat

inductive WaitEvent where
  | addWaitNode (kind : WriteKind) (result : StoreResult) (bucketNumber : Nat)
      (slaves : List UInt64) (packetId : UInt32)
  | acknowledge (bucketNumber : Nat) (server : UInt64) (packetId : UInt32)
  | timeOut (packetId : UInt32)

namespace WaitState

def start : WaitState := ⟨.construct, 0, [], []⟩

abbrev nodes (state : WaitState) : AList fun _ : UInt32 => WaitNode := state.packetsMgr.pkgWaitMap

variable (state : WaitState)

/-- The node that an event reads and writes. -/
def touched : WaitEvent → Option WaitNode
  | .addWaitNode .. => none
  | .acknowledge _ _ packetId | .timeOut packetId => state.nodes.lookup packetId

def step : WaitEvent → Except Fault WaitState
  | .addWaitNode kind result bucketNumber slaves packetId =>
    (fun (added, rc) => { state with
      packetsMgr := added
      made := state.made + 1
      sent := if rc = .success then (packetId, bucketNumber) :: state.sent else state.sent }) <$>
    state.packetsMgr.insertNode (kind.waitNode result bucketNumber state.made slaves)
      bucketNumber packetId
  | .acknowledge bucketNumber server packetId =>
    (fun (answered, _, node) => { state with
      packetsMgr := answered
      freed := (node.map WaitNode.request).toList ++ state.freed }) <$>
    state.packetsMgr.doResponse bucketNumber server packetId
  | .timeOut packetId =>
    (fun cleared => { state with
      packetsMgr := cleared
      freed := ((state.nodes.lookup packetId).map WaitNode.request).toList ++ state.freed }) <$>
    state.packetsMgr.doTimeout packetId

/-- An acknowledgement names the bucket of a packet that was sent under its id. -/
def Echoed : WaitEvent → Prop
  | .acknowledge bucketNumber _ packetId => (packetId, bucketNumber) ∈ state.sent
  | _ => True

instance (state : WaitState) : ∀ event, Decidable (state.Echoed event)
  | .acknowledge .. => inferInstanceAs (Decidable (_ ∈ _))
  | .addWaitNode .. | .timeOut _ => .isTrue trivial

/-- Besides, a node has a bucket that is counted and a slave to wait for, and an id that comes
again comes with its bucket. -/
def Proper : WaitEvent → Prop
  | .addWaitNode _ _ bucketNumber slaves packetId => bucketNumber < tairMaxBucketNumber ∧
      (∃ slave ∈ slaves.take maxDupCount, slave ≠ 0) ∧
      ∀ earlier ∈ state.sent, earlier.1 = packetId → earlier.2 = bucketNumber
  | event => state.Echoed event

instance (state : WaitState) : ∀ event, Decidable (state.Proper event)
  | .addWaitNode .. => inferInstanceAs (Decidable (_ ∧ _ ∧ _))
  | .acknowledge .. => inferInstanceAs (Decidable (_ ∈ _))
  | .timeOut _ => .isTrue trivial

structure Balanced (state : WaitState) : Prop where
  counts : ∀ bucket, state.packetsMgr.bucketCount bucket =
    state.nodes.entries.countP fun entry => entry.2.bucketNumber = bucket
  waits : ∀ packetId node, state.nodes.lookup packetId = some node →
    ∃ server ∈ node.desServerIds, server ≠ 0
  untouched : ∀ event node, state.touched event = some node → node.request ∉ state.freed

/-! ### What a step keeps -/

structure Known (state : WaitState) (packetId : UInt32) (node : WaitNode) : Prop where
  waits : ∃ server ∈ node.desServerIds, server ≠ 0
  counted : node.bucketNumber < tairMaxBucketNumber
  echoes : ∀ earlier ∈ state.sent, earlier.1 = packetId → earlier.2 = node.bucketNumber
  before : node.request < state.made
  there : node.request ∉ state.freed

structure Kept (state : WaitState) : Prop where
  counts : Counts state.nodes WaitNode.bucketNumber state.packetsMgr.bucketCount
  known : ∀ packetId node, state.nodes.lookup packetId = some node →
    state.Known packetId node
  apart : ∀ first second node other, state.nodes.lookup first = some node →
    state.nodes.lookup second = some other → node.request = other.request →
    first = second
  freed : ∀ request ∈ state.freed, request < state.made

variable {state next : WaitState} {event : WaitEvent} {packetId : UInt32} {node : WaitNode}

theorem Kept.start : start.Kept where
  counts := .empty
  known _ _ found := by cases found
  apart _ _ _ _ found := by cases found
  freed _ gone := by cases gone

/-- The number of a new node is one that no other node has. -/
theorem Kept.add (kept : state.Kept) (fresh : state.nodes.lookup packetId = none)
    (waits : ∃ server ∈ node.desServerIds, server ≠ 0)
    (counted : node.bucketNumber < tairMaxBucketNumber) (number : node.request = state.made)
    (echoes : ∀ prior ∈ state.sent, prior.1 = packetId → prior.2 = node.bucketNumber) :
    Kept { state with
      packetsMgr := ⟨state.nodes.insert packetId node,
        Function.update state.packetsMgr.bucketCount node.bucketNumber
          (state.packetsMgr.bucketCount node.bucketNumber + 1)⟩
      made := state.made + 1
      sent := (packetId, node.bucketNumber) :: state.sent } := by
  have old {other : UInt32} {prior : WaitNode} (ne : other ≠ packetId)
      (found : (state.nodes.insert packetId node).lookup other = some prior) :
      state.nodes.lookup other = some prior := by
    rwa [AList.lookup_insert_ne ne] at found
  have new {prior : WaitNode}
      (found : (state.nodes.insert packetId node).lookup packetId = some prior) :
      node = prior := by
    rw [AList.lookup_insert] at found
    exact Option.some.inj found
  refine ⟨kept.counts.insert fresh, fun other prior found => ?_, ?_, fun request gone =>
    Nat.lt_succ_of_lt (kept.freed request gone)⟩
  · by_cases same : other = packetId
    · subst same
      obtain rfl := new found
      refine ⟨waits, counted, ?_, number ▸ Nat.lt_succ_self _, fun gone => ?_⟩
      · rintro packet (_ | listed) isId
        · rfl
        · exact echoes packet ‹_› isId
      · exact (kept.freed _ gone).ne number
    · have known := kept.known other prior (old same found)
      refine ⟨known.waits, known.counted, ?_, Nat.lt_succ_of_lt known.before, known.there⟩
      rintro packet (_ | listed) isId
      · exact absurd isId.symm same
      · exact known.echoes packet ‹_› isId
  · intro first second one two foundOne foundTwo equal
    by_cases isFirst : first = packetId
    · by_cases isSecond : second = packetId
      · rw [isFirst, isSecond]
      · subst isFirst
        obtain rfl := new foundOne
        have before := (kept.known second two (old isSecond foundTwo)).before
        exact absurd (number.symm.trans equal) before.ne'
    · by_cases isSecond : second = packetId
      · subst isSecond
        obtain rfl := new foundTwo
        have before := (kept.known first one (old isFirst foundOne)).before
        exact absurd (equal.trans number) before.ne
      · exact kept.apart first second one two (old isFirst foundOne) (old isSecond foundTwo) equal

theorem Kept.replace {other : WaitNode} (kept : state.Kept)
    (found : state.nodes.lookup packetId = some node)
    (bucket : other.bucketNumber = node.bucketNumber) (number : other.request = node.request)
    (waits : ∃ server ∈ other.desServerIds, server ≠ 0) :
    Kept { state with packetsMgr := { state.packetsMgr with
      pkgWaitMap := state.nodes.insert packetId other } } := by
  -- Under every id there is a node with the same number as before.
  have prior {id : UInt32} {last : WaitNode}
      (now : (state.nodes.insert packetId other).lookup id = some last) :
      ∃ before, state.nodes.lookup id = some before ∧ before.request = last.request := by
    by_cases same : id = packetId
    · subst same
      rw [AList.lookup_insert] at now
      exact ⟨node, found, Option.some.inj now ▸ number.symm⟩
    · rw [AList.lookup_insert_ne same] at now
      exact ⟨last, now, rfl⟩
  refine ⟨kept.counts.replace found bucket, fun id last now => ?_, ?_, kept.freed⟩
  · by_cases same : id = packetId
    · subst same
      rw [AList.lookup_insert] at now
      obtain rfl := Option.some.inj now
      have known := kept.known id node found
      exact ⟨waits, bucket ▸ known.counted, bucket ▸ known.echoes, number ▸ known.before,
        number ▸ known.there⟩
    · rw [AList.lookup_insert_ne same] at now
      have known := kept.known id last now
      exact { known with }
  · intro first second one two foundOne foundTwo equal
    obtain ⟨oneBefore, foundFirst, sameOne⟩ := prior foundOne
    obtain ⟨twoBefore, foundSecond, sameTwo⟩ := prior foundTwo
    exact kept.apart first second _ _ foundFirst foundSecond
      (sameOne.trans (equal.trans sameTwo.symm))

theorem Kept.drop (kept : state.Kept)
    (found : state.nodes.lookup packetId = some node) :
    Kept { state with
      packetsMgr := ⟨state.nodes.erase packetId,
        Function.update state.packetsMgr.bucketCount node.bucketNumber
          (state.packetsMgr.bucketCount node.bucketNumber - 1)⟩
      freed := node.request :: state.freed } := by
  have old {id : UInt32} {other : WaitNode}
      (left : (state.nodes.erase packetId).lookup id = some other) :
      id ≠ packetId ∧ state.nodes.lookup id = some other := by
    by_cases same : id = packetId
    · rw [same, AList.lookup_erase] at left
      cases left
    · rw [AList.lookup_erase_ne same] at left
      exact ⟨same, left⟩
  refine ⟨kept.counts.erase found, fun id other left => ?_, ?_, ?_⟩
  · obtain ⟨ne, before⟩ := old left
    have known := kept.known id other before
    refine ⟨known.waits, known.counted, known.echoes, known.before, fun gone => ?_⟩
    cases List.mem_cons.mp gone with
    | inl same => exact ne (kept.apart id packetId other node before found same)
    | inr prior => exact known.there prior
  · intro first second one two foundOne foundTwo equal
    exact kept.apart first second one two (old foundOne).2 (old foundTwo).2 equal
  · intro request gone
    cases List.mem_cons.mp gone with
    | inl same => exact same ▸ (kept.known packetId node found).before
    | inr prior => exact kept.freed request prior

theorem Kept.step (kept : state.Kept) (proper : state.Proper event)
    (ran : state.step event = .ok next) : next.Kept := by
  cases event with
  | addWaitNode kind result bucketNumber slaves packetId =>
    obtain ⟨counted, ⟨slave, listed, real⟩, echoes⟩ := proper
    obtain ⟨⟨added, rc⟩, inserted, rfl⟩ := ok_of_map ran
    obtain ⟨-, rfl, rfl⟩ | ⟨fresh, rfl, -, rfl⟩ := WaitManager.insertNode_cases inserted
    · refine ⟨kept.counts, fun id node found => ?_, kept.apart,
        fun request gone => Nat.lt_succ_of_lt (kept.freed request gone)⟩
      have known := kept.known id node found
      exact { known with before := Nat.lt_succ_of_lt known.before }
    · have waits : ∃ server ∈ (kind.waitNode result bucketNumber state.made slaves).desServerIds,
          server ≠ 0 := by
        rw [WriteKind.waitNode_desServerIds]
        refine ⟨slave, ?_, real⟩
        change slave ∈ (slaves ++ _).take maxDupCount
        rw [List.take_append]
        exact List.mem_append_left _ listed
      have bucket := kind.waitNode_bucketNumber result bucketNumber state.made slaves
      have after := kept.add fresh waits (bucket.symm ▸ counted) (kind.waitNode_request ..)
        (bucket.symm ▸ echoes)
      rw [bucket] at after
      exact after
  | acknowledge bucketNumber server packetId =>
    obtain ⟨⟨answered, rc, completed⟩, responded, rfl⟩ := ok_of_map ran
    obtain ⟨-, rfl, rfl⟩ | ⟨node, found, ⟨others, rfl, rfl⟩ | ⟨-, rfl, -, rfl⟩⟩ :=
      WaitManager.doResponse_cases responded
    · exact kept
    · exact kept.replace found rfl rfl
        (WaitNode.exists_nonzero_acknowledge (kept.known packetId node found).waits others)
    · obtain rfl : bucketNumber = node.bucketNumber :=
        (kept.known packetId node found).echoes _ proper rfl
      exact kept.drop found
  | timeOut packetId =>
    obtain ⟨clean, clears, rfl⟩ := ok_of_map ran
    obtain ⟨gone, rfl⟩ | ⟨node, found, rfl⟩ := WaitManager.clearWaitnode_cases clears
    · rw [gone]
      exact kept
    · rw [found]
      exact kept.drop found

theorem Kept.step_ok (kept : state.Kept) (proper : state.Proper event) :
    ∃ next, state.step event = .ok next := by
  cases event with
  | addWaitNode kind result bucketNumber slaves packetId =>
    obtain ⟨inserted, inserts⟩ := @DupServer.insertNode_ok state.packetsMgr _ proper.1
      (kind.waitNode result bucketNumber state.made slaves) packetId
    rw [WaitState.step, inserts]
    exact ⟨_, rfl⟩
  | acknowledge bucketNumber server packetId =>
    have small (node : WaitNode)
        (found : state.nodes.lookup packetId = some node) :
        bucketNumber < tairMaxBucketNumber := by
      have known := kept.known packetId node found
      obtain rfl : bucketNumber = node.bucketNumber := known.echoes _ proper rfl
      exact known.counted
    obtain ⟨responded, answers⟩ := DupServer.doResponse_ok small server
    rw [WaitState.step, answers]
    exact ⟨_, rfl⟩
  | timeOut packetId =>
    obtain ⟨clean, clears⟩ := DupServer.clearWaitnode_ok fun node found =>
      (kept.known packetId node found).counted
    rw [WaitState.step, WaitManager.doTimeout, clears]
    exact ⟨_, rfl⟩

/-- In a run of proper steps the books are right, whatever is touched is still there, and no
assertion stops the server. -/
theorem wait_nodes_balanced (reached : Reached WaitState.step Proper start state) :
    state.Balanced ∧ ∀ event, state.Proper event → ∃ next, state.step event = .ok next := by
  have kept : state.Kept :=
    reached.invariant Kept .start fun kept proper stepped => kept.step proper stepped
  refine ⟨⟨kept.counts, fun id node found => (kept.known id node found).waits,
    fun event node touched => ?_⟩, fun event proper => kept.step_ok proper⟩
  cases event with
  | addWaitNode => cases touched
  | acknowledge _ _ packetId => exact (kept.known packetId node touched).there
  | timeOut packetId => exact (kept.known packetId node touched).there

def storedPut (bucketNumber : Nat) (slaves : List UInt64) (packetId : UInt32) : WaitEvent :=
  .addWaitNode .put ⟨.success, 0, 0, 0, [], []⟩ bucketNumber slaves packetId

theorem wait_nodes_balanced_pair :
    ∃ state, Reached WaitState.step Proper start state ∧
      (state.nodes.lookup 2).isSome = true ∧ state.Balanced := by
  obtain ⟨state, reached, waiting⟩ : ∃ state, Reached WaitState.step Proper start state ∧
      (state.nodes.lookup 2).isSome = true :=
    exists_run [storedPut 7 [2, 3] 2, .acknowledge 7 2 2, .acknowledge 7 2 2] (by decide +kernel)
  exact ⟨state, reached, waiting, (wait_nodes_balanced reached).1⟩

/-- A table of more than 1024 buckets stops the server. Without slaves a node waits for nobody,
and an old acknowledgement under an id that is used again counts for the wrong bucket. -/
theorem wait_nodes_unbalanced :
    start.step (storedPut 1024 [2] 1) = .error .assertFailed ∧
      (∃ state, Reached WaitState.step Echoed start state ∧
        ∃ node, state.nodes.lookup 1 = some node ∧ ∀ server ∈ node.desServerIds, server = 0) ∧
      ∃ state, Reached WaitState.step Echoed start state ∧
        state.packetsMgr.bucketCount 1 = 1 ∧ state.nodes.entries = [] := by
  refine ⟨rfl, ?_, ?_⟩
  · obtain ⟨state, reached, node, found, ids⟩ : ∃ state, Reached WaitState.step Echoed start state ∧
        ∃ node, state.nodes.lookup 1 = some node ∧ node.desServerIds = [0, 0] :=
      exists_run [storedPut 0 [] 1] (by decide +kernel)
    exact ⟨state, reached, node, found, by simp [ids]⟩
  · exact exists_run [storedPut 0 [2] 1, .timeOut 1, storedPut 1 [2] 1, .acknowledge 0 2 1]
      (by decide +kernel)

end WaitState

end Tair.DataServer
