/-
The queue of the remote synchronisation. A node goes to memory by reference; with memory full it
is written to disk and deleted, also when the write fails, and the caller tries it again.
-/

import Mathlib

namespace Tair.Remote

/-- What a pointer to a node may lead to, as long as the node was not deleted. -/
structure QueueNode where
  nodeId : Int
  payload : List UInt8
deriving DecidableEq, Repr

/-- `_max_size` is the number of slots; `none` is a null pointer. -/
structure MemQueue where
  slots : List (Option QueueNode)
  headIndex : Nat
  tailIndex : Nat

namespace MemQueue

def full (queue : MemQueue) : Bool :=
  (queue.tailIndex + 1) % queue.slots.length = queue.headIndex

def push (queue : MemQueue) (node : QueueNode) : MemQueue × Bool :=
  if queue.slots[queue.tailIndex]? = some none then
    ({ queue with
        slots := queue.slots.set queue.tailIndex (some node)
        tailIndex := (queue.tailIndex + 1) % queue.slots.length }, true)
  else (queue, false)

end MemQueue

/-- `isReady` says that the queue is initialised and has a function that serialises. -/
structure DiskQueue where
  isReady : Bool
  records : List QueueNode

/-- A push finds out whether the node can be serialised and the record written. -/
def DiskQueue.push (queue : DiskQueue) (node : QueueNode) (serialized wrote : Bool) :
    DiskQueue × Option QueueNode × Bool :=
  if queue.isReady = false then (queue, some node, false)
  else if serialized && wrote then ({ queue with records := queue.records ++ [node] }, none, true)
  else (queue, none, false)

structure LocalQueue where
  pushNextNodeId : Int
  memQueue : MemQueue
  diskQueue : DiskQueue

/-- A push of the node that the pointer of the caller leads to, and where it leads afterwards.
It fails with `none` when the node is not there any more. -/
def LocalQueue.push (queue : LocalQueue) (serialized wrote : Bool) :
    Option QueueNode → Option (LocalQueue × Option QueueNode × Bool)
  | none => none
  | some node =>
    let node := { node with nodeId := queue.pushNextNodeId }
    let nextId (isOk : Bool) := if isOk then queue.pushNextNodeId + 1 else queue.pushNextNodeId
    if queue.memQueue.full = false then
      let (memQueue, isOk) := queue.memQueue.push node
      some ({ queue with memQueue, pushNextNodeId := nextId isOk }, some node, isOk)
    else
      let (diskQueue, left, isOk) := queue.diskQueue.push node serialized wrote
      some ({ queue with diskQueue, pushNextNodeId := nextId isOk }, left, isOk)

/-- The queue as an attempt of `do_response` finds it, and how the disk fares. -/
structure Attempt where
  queue : LocalQueue
  serialized : Bool
  wrote : Bool

/-- One attempt that was made: the queue before and after it, the node and the answer. -/
abbrev Made := LocalQueue × LocalQueue × Option QueueNode × Bool

/-- The loop of `do_response`, between whose attempts other threads push and pop. -/
def pushLoop : List Attempt → Option QueueNode → Option (List Made)
  | [], _ => some []
  | attempt :: rest, node =>
    match attempt.queue.push attempt.serialized attempt.wrote node with
    | none => none
    | some (after, left, isOk) =>
      (if isOk then some [] else pushLoop rest left).map ((attempt.queue, after, left, isOk) :: ·)

def doResponse (first second third : Attempt) (node : QueueNode) : Option (List Made) :=
  pushLoop [first, second, third] (some node)

/-- No attempt meets a deleted node; one that fails leaves the queue as it was and the node with
the caller; and one at most takes the node. -/
def Retried (node : QueueNode) (result : Option (List Made)) : Prop :=
  ∃ made, result = some made ∧
    (∀ before after left, (before, after, left, false) ∈ made →
      after = before ∧ left = some { node with nodeId := before.pushNextNodeId }) ∧
    made.countP (fun push => push.2.2.2) ≤ 1

namespace Attempt

/-- Memory is full, and the disk deletes a node that it does not write. -/
def loses (attempt : Attempt) : Bool :=
  attempt.queue.memQueue.full && attempt.queue.diskQueue.isReady &&
    !(attempt.serialized && attempt.wrote)

def succeeds (attempt : Attempt) : Bool :=
  if attempt.queue.memQueue.full then
    attempt.queue.diskQueue.isReady && (attempt.serialized && attempt.wrote)
  else attempt.queue.memQueue.slots[attempt.queue.memQueue.tailIndex]? = some none

/-- None of the attempts up to the first that succeeds loses the node. -/
def NoneLose : List Attempt → Prop
  | [] => True
  | attempt :: rest => attempt.loses = false ∧ (attempt.succeeds = false → NoneLose rest)

theorem push_eq (attempt : Attempt) (node : QueueNode) :
    ∃ after left, attempt.queue.push attempt.serialized attempt.wrote (some node) =
      some (after, left, attempt.succeeds) ∧ (attempt.succeeds = false →
        after = attempt.queue ∧ left = if attempt.loses then none
          else some { node with nodeId := attempt.queue.pushNextNodeId }) := by
  obtain ⟨⟨nextId, memQueue, diskQueue⟩, serialized, wrote⟩ := attempt
  unfold succeeds loses LocalQueue.push
  dsimp only
  cases memQueue.full with
  | false =>
    unfold MemQueue.push
    by_cases room : memQueue.slots[memQueue.tailIndex]? = some none
    · simp [room]
    · simp [room]
  | true =>
    unfold DiskQueue.push
    cases diskQueue.isReady with
    | false => simp
    | true =>
      cases serialized && wrote with
      | false => simp
      | true => simp

theorem not_loses {attempt : Attempt} (isOk : attempt.succeeds = true) : attempt.loses = false := by
  unfold succeeds at isOk
  unfold loses
  split_ifs at isOk with full
  · rw [Bool.and_eq_true] at isOk
    rw [isOk.2, Bool.not_true, Bool.and_false]
  · rw [Bool.eq_false_iff.mpr full, Bool.false_and, Bool.false_and]

theorem retried_pushLoop (attempts : List Attempt) (node : QueueNode) :
    Retried node (pushLoop attempts (some node)) ↔ NoneLose attempts := by
  induction attempts generalizing node with
  | nil => exact iff_of_true ⟨[], rfl, by simp, by simp⟩ trivial
  | cons attempt rest ih =>
    obtain ⟨after, left, pushed, failed⟩ := attempt.push_eq node
    unfold pushLoop NoneLose
    rw [pushed]
    dsimp only
    cases isOk : attempt.succeeds with
    | true =>
      refine iff_of_true ⟨_, rfl, ?_, by simp⟩ ⟨not_loses isOk, fun fails => nomatch fails⟩
      intro before after left listed
      simp at listed
    | false =>
      obtain ⟨rfl, rfl⟩ := failed isOk
      cases attempt.loses with
      | true =>
        refine iff_of_false ?_ (fun none => nomatch none.1)
        rintro ⟨made, result, kept, -⟩
        obtain ⟨later, -, rfl⟩ := Option.map_eq_some_iff.mp result
        cases (kept _ _ _ List.mem_cons_self).2
      | false =>
        rw [and_iff_right rfl, imp_iff_right rfl, ← ih]
        constructor
        · rintro ⟨made, result, kept, once⟩
          obtain ⟨later, ran, rfl⟩ := Option.map_eq_some_iff.mp result
          refine ⟨later, ran, fun before after left listed => ?_, ?_⟩
          · exact kept _ _ _ (List.mem_cons_of_mem _ listed)
          · rwa [List.countP_cons_of_neg Bool.false_ne_true] at once
        · rintro ⟨later, ran, kept, once⟩
          refine ⟨_, Option.map_eq_some_iff.mpr ⟨later, ran, rfl⟩, ?_, ?_⟩
          · intro before after left listed
            cases listed with
            | head => exact ⟨rfl, rfl⟩
            | tail _ listed => exact kept _ _ _ listed
          · rwa [List.countP_cons_of_neg Bool.false_ne_true]

end Attempt

/-- A node can be tried again exactly as long as no attempt deletes it without writing it. -/
theorem retried_iff (first second third : Attempt) (node : QueueNode) :
    Retried node (doResponse first second third node) ↔
      Attempt.NoneLose [first, second, third] :=
  Attempt.retried_pushLoop _ _

/-- Memory is full with 4095 nodes, and the disk does not write. -/
def fullAttempt : Attempt where
  queue :=
    { pushNextNodeId := 4095
      memQueue := ⟨(List.range 4095).map (fun id => some ⟨id, []⟩) ++ [none], 0, 4095⟩
      diskQueue := ⟨true, []⟩ }
  serialized := true
  wrote := false

/-- The first push fails and deletes the node, and the second one writes into it. -/
theorem second_push_meets_deleted_node :
    fullAttempt.queue.push true false (some ⟨0, [7]⟩) = some (fullAttempt.queue, none, false) ∧
      doResponse fullAttempt fullAttempt fullAttempt ⟨0, [7]⟩ = none ∧
      ¬Retried ⟨0, [7]⟩ (doResponse fullAttempt fullAttempt fullAttempt ⟨0, [7]⟩) := by
  have full : fullAttempt.queue.memQueue.full = true := by simp [fullAttempt, MemQueue.full]
  have deleted : fullAttempt.queue.push true false (some ⟨0, [7]⟩) =
      some (fullAttempt.queue, none, false) := by
    unfold LocalQueue.push
    rw [full]
    rfl
  have ended : doResponse fullAttempt fullAttempt fullAttempt ⟨0, [7]⟩ = none := by
    unfold doResponse pushLoop
    rw [show fullAttempt.queue.push fullAttempt.serialized fullAttempt.wrote _ = _ from deleted]
    rfl
  refine ⟨deleted, ended, ?_⟩
  rw [ended]
  rintro ⟨made, bad, -⟩
  cases bad

end Tair.Remote
