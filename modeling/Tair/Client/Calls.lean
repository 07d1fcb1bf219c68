/-
The calls of the client for one key. Each checks its arguments, asks one server or several in
turn, and makes a return code of what comes back.
-/

import Tair.Client.Hmget
import Tair.Client.Routing

namespace Tair.Client

open Tair.Common

/-! ### What comes back -/

/-- A packet that comes for a request. A `response_get` has as many pairs as its `key_count`. -/
inductive Reply where
  | responseReturn (configVersion : UInt32) (code : Int)
  | responseGet (configVersion : UInt32) (code : Int) (pairs : List (List UInt8 × List UInt8))
  | other
deriving DecidableEq, Repr

/-- What becomes of a request: `sendPacket` refuses it, nothing comes in time, or a reply. -/
inductive Delivery where
  | refused
  | silent
  | replied (reply : Reply)
deriving DecidableEq, Repr

def connectErrorOrTimeout : Int := -1
def sendFailed : Int := -3990
def writeNotOnMaster : Int := -3986

def updateServerTableInterval : Nat := 50

namespace ClientState

def countFailure (client : ClientState) : ClientState :=
  { client with sendFailCount := client.sendFailCount + 1 }

def noteVersion (client : ClientState) (version : UInt32) : ClientState :=
  { client with newConfigVersion := version }

def askForTable (client : ClientState) : ClientState :=
  { client with sendFailCount := updateServerTableInterval }

end ClientState

/-- `send_request` and `get_response` for one server after the other, until a reply is there. A
failed `send_request` leaves the code of the attempt before. -/
def askInTurn (client : ClientState) (ret : Int) (deliver : Nat → Delivery) :
    List UInt64 → Except Crash (ClientState × Except Int Reply)
  | [] => .ok (client, .error ret)
  | server :: servers =>
    if server = 0 then .error .assertFailed
    else
      let later := fun attempt => deliver (attempt + 1)
      match deliver 0 with
      | .refused => askInTurn client.countFailure ret later servers
      | .silent => askInTurn client timeout later servers
      | .replied reply => .ok (client, .ok reply)

/-! ### The calls -/

inductive Call where
  | put (area : Int) (key data : List UInt8) (expired version : Int)
  | get (area : Int) (key : List UInt8)
  | remove (area : Int) (key : List UInt8)
deriving DecidableEq, Repr

structure Result where
  client : ClientState
  code : Int
  data : Option (List UInt8)
deriving DecidableEq, Repr

namespace Call

def key : Call → List UInt8
  | put _ key _ _ _ => key
  | get _ key => key
  | remove _ key => key

def refusal : Call → Option Int
  | put area key data expired version =>
    if keyEntryCheck key = false ∨ dataEntryCheck data = false then
      some ReturnCode.itemsizeError.code
    else if tairMaxDataSize + tairMaxKeySize < key.length + data.length then
      some ReturnCode.itemsizeError.code
    else if area < 0 ∨ tairMaxAreaCount ≤ area ∨ version < 0 ∨ expired < 0 then
      some ReturnCode.invalidArgument.code
    else none
  | get area key =>
    if keyEntryCheck key = false then some ReturnCode.itemsizeError.code
    else if area < 0 ∨ tairMaxAreaCount ≤ area then some ReturnCode.invalidArgument.code
    else none
  | remove area key =>
    if area < 0 ∨ tairMaxAreaCount ≤ area then some ReturnCode.invalidArgument.code
    else if keyEntryCheck key = false then some ReturnCode.itemsizeError.code
    else none

/-- The servers that are asked: all of them by `get`, the first by the others. -/
def targets : Call → List UInt64 → List UInt64
  | get _ _, servers => servers
  | _, servers => servers.take 1

variable (client : ClientState)

/-- The end of `put`. With a packet of another type `ret` still is what `get_response` gave. -/
def finishPut : Reply → Result
  | .responseReturn configVersion code =>
    if code = ReturnCode.serverCanNotWork.code ∨ code = writeNotOnMaster then
      ⟨(client.noteVersion configVersion).askForTable, code, none⟩
    else ⟨client.noteVersion configVersion, code, none⟩
  | _ => ⟨client, 0, none⟩

/-- `get` asserts that there is data: with another `key_count` than 1 there is none. -/
def takeData : List (List UInt8 × List UInt8) → Except Crash Result
  | [pair] => .ok ⟨client, ReturnCode.success.code, some pair.2⟩
  | _ => .error .assertFailed

/-- The end of `get`. `resp` is null where the packet is no `response_get`. -/
def finishGet : Reply → Except Crash Result
  | .responseGet configVersion code pairs =>
    if code = ReturnCode.success.code then takeData (client.noteVersion configVersion) pairs
    else if code = ReturnCode.serverCanNotWork.code then
      .ok ⟨(client.noteVersion configVersion).askForTable, code, none⟩
    else .ok ⟨client, code, none⟩
  | .responseReturn _ code =>
    if code = ReturnCode.serverCanNotWork.code then .error .nullReply
    else .ok ⟨client, code, none⟩
  | .other => .ok ⟨client, 0, none⟩

/-- The end of `remove`. -/
def finishRemove : Reply → Result
  | .responseReturn configVersion code =>
    if code = ReturnCode.serverCanNotWork.code then
      ⟨(client.noteVersion configVersion).askForTable, code, none⟩
    else ⟨client.noteVersion configVersion, code, none⟩
  | _ => ⟨client, 0, none⟩

def finish (reply : Reply) : Call → Except Crash Result
  | put .. => .ok (finishPut client reply)
  | get .. => finishGet client reply
  | remove .. => .ok (finishRemove client reply)

def conclude (call : Call) (client : ClientState) : Except Int Reply → Except Crash Result
  | .ok reply => call.finish client reply
  | .error code => .ok ⟨client, code, none⟩

def perform (call : Call) (client : ClientState) (deliver : Nat → Delivery) :
    Except Crash Result :=
  call.refusal.elim
    (do
      let servers ← serversOf client call.key
      if servers = [] then
        .ok ⟨client, connectErrorOrTimeout, none⟩
      else
        let outcome ← askInTurn client sendFailed deliver (call.targets servers)
        call.conclude outcome.1 outcome.2)
    fun code => .ok ⟨client, code, none⟩

end Call

section

variable (client : ClientState)

def put (area : Int) (key data : List UInt8) (expired version : Int)
    (deliver : Nat → Delivery) : Except Crash Result :=
  (Call.put area key data expired version).perform client deliver

def get (area : Int) (key : List UInt8) (deliver : Nat → Delivery) : Except Crash Result :=
  (Call.get area key).perform client deliver

def remove (area : Int) (key : List UInt8) (deliver : Nat → Delivery) : Except Crash Result :=
  (Call.remove area key).perform client deliver

/-! ### Truth -/

def firstReply (deliver : Nat → Delivery) : Nat → Option Reply
  | 0 => none
  | count + 1 =>
    match deliver 0 with
    | .replied reply => some reply
    | _ => firstReply (fun attempt => deliver (attempt + 1)) count

def Arrived (call : Call) (deliver : Nat → Delivery) (reply : Reply) : Prop :=
  call.refusal = none ∧ ∃ servers, serversOf client call.key = .ok servers ∧
    firstReply deliver (call.targets servers).length = some reply

def Call.ConfirmedBy : Call → Reply → Prop
  | .get .., reply => ∃ configVersion pairs,
      reply = .responseGet configVersion ReturnCode.success.code pairs
  | _, reply => ∃ configVersion, reply = .responseReturn configVersion ReturnCode.success.code

/-- The call returns, and it returns success only if such a reply has arrived. -/
def Truthful (call : Call) (deliver : Nat → Delivery) : Prop :=
  ∃ result, call.perform client deliver = .ok result ∧
    (result.code = ReturnCode.success.code →
      ∃ reply, Arrived client call deliver reply ∧ call.ConfirmedBy reply)

end

/-- The replies that a call is written for: a `response_return`, and for `get` a `response_get`,
with one pair if it is a success, or a `response_return` of another failure than
`TAIR_RETURN_SERVER_CAN_NOT_WORK`. -/
def Call.Expects : Call → Reply → Prop
  | .get .., .responseGet _ code pairs => code = ReturnCode.success.code → pairs.length = 1
  | .get .., .responseReturn _ code =>
    code ≠ ReturnCode.success.code ∧ code ≠ ReturnCode.serverCanNotWork.code
  | _, .responseReturn .. => True
  | _, _ => False

theorem askInTurn_ok {servers : List UInt64} (real : 0 ∉ servers) (deliver : Nat → Delivery)
    (client : ClientState) {ret : Int} (failure : ret ≠ ReturnCode.success.code) :
    ∃ after answer, askInTurn client ret deliver servers = .ok (after, answer) ∧
      ((∃ reply, answer = .ok reply ∧ firstReply deliver servers.length = some reply) ∨
        ∃ code, answer = .error code ∧ code ≠ ReturnCode.success.code ∧
          firstReply deliver servers.length = none) := by
  induction servers generalizing client ret deliver with
  | nil => exact ⟨client, .error ret, rfl, .inr ⟨ret, rfl, failure, rfl⟩⟩
  | cons server rest ih =>
    rw [List.mem_cons, not_or] at real
    rw [askInTurn, if_neg (Ne.symm real.1), List.length_cons, firstReply]
    cases deliver 0 with
    | refused => exact ih real.2 _ client.countFailure failure
    | silent => exact ih real.2 _ client (by decide)
    | replied reply => exact ⟨client, .ok reply, rfl, .inl ⟨reply, rfl, rfl⟩⟩

theorem Call.zero_notMem_targets (call : Call) {servers : List UInt64} (real : 0 ∉ servers) :
    0 ∉ call.targets servers := by
  cases call with
  | get area key => exact real
  | put area key data expired version => exact fun member => real (List.mem_of_mem_take member)
  | remove area key => exact fun member => real (List.mem_of_mem_take member)

theorem Call.refusal_ne_success {call : Call} {code : Int} (refused : call.refusal = some code) :
    code ≠ ReturnCode.success.code := by
  cases call with
  | put area key data expired version =>
    simp only [refusal] at refused
    split_ifs at refused <;> cases refused <;> decide
  | get area key =>
    simp only [refusal] at refused
    split_ifs at refused <;> cases refused <;> decide
  | remove area key =>
    simp only [refusal] at refused
    split_ifs at refused <;> cases refused <;> decide

section

variable (client : ClientState) (configVersion : UInt32) (code : Int)

include client configVersion code

theorem Call.finishPut_code :
    (finishPut client (.responseReturn configVersion code)).code = code := by
  rw [finishPut]
  split_ifs <;> rfl

theorem Call.finishRemove_code :
    (finishRemove client (.responseReturn configVersion code)).code = code := by
  rw [finishRemove]
  split_ifs <;> rfl

theorem Call.finishGet_get_iff (pairs : List (List UInt8 × List UInt8)) :
    (∃ result, finishGet client (.responseGet configVersion code pairs) = .ok result ∧
      (result.code = ReturnCode.success.code → ∃ configVersion' pairs',
        Reply.responseGet configVersion code pairs =
          .responseGet configVersion' ReturnCode.success.code pairs')) ↔
      (code = ReturnCode.success.code → pairs.length = 1) := by
  rw [finishGet]
  by_cases success : code = ReturnCode.success.code
  · rw [if_pos success, success]
    rcases pairs with _ | ⟨pair, _ | ⟨second, rest⟩⟩
    · simp [takeData]
    · simp [takeData]
    · simp [takeData]
  · rw [if_neg success]
    refine iff_of_true ?_ fun same => absurd same success
    split_ifs
    · exact ⟨_, rfl, fun same => absurd same success⟩
    · exact ⟨_, rfl, fun same => absurd same success⟩

end

/-- What a call makes of a reply is the truth exactly for the replies it is written for. -/
theorem Call.finish_truthful_iff (call : Call) (client : ClientState) (reply : Reply) :
    (∃ result, call.finish client reply = .ok result ∧
      (result.code = ReturnCode.success.code → call.ConfirmedBy reply)) ↔ call.Expects reply := by
  cases call with
  | put area key data expired version =>
    cases reply with
    | responseReturn configVersion code =>
      refine iff_of_true ⟨_, rfl, fun success => ⟨configVersion, ?_⟩⟩ trivial
      rw [finishPut_code] at success
      rw [success]
    | responseGet configVersion code pairs => simp [finish, finishPut, ConfirmedBy, Expects,
        ReturnCode.code]
    | other => simp [finish, finishPut, ConfirmedBy, Expects, ReturnCode.code]
  | get area key =>
    cases reply with
    | responseReturn configVersion code =>
      by_cases down : code = ReturnCode.serverCanNotWork.code <;>
        simp [finish, finishGet, ConfirmedBy, Expects, down]
    | responseGet configVersion code pairs =>
      exact finishGet_get_iff client configVersion code pairs
    | other => simp [finish, finishGet, ConfirmedBy, Expects, ReturnCode.code]
  | remove area key =>
    cases reply with
    | responseReturn configVersion code =>
      refine iff_of_true ⟨_, rfl, fun success => ⟨configVersion, ?_⟩⟩ trivial
      rw [finishRemove_code] at success
      rw [success]
    | responseGet configVersion code pairs => simp [finish, finishRemove, ConfirmedBy, Expects,
        ReturnCode.code]
    | other => simp [finish, finishRemove, ConfirmedBy, Expects, ReturnCode.code]

section Accepted

variable {client : ClientState} {call : Call} {servers : List UInt64}

theorem arrived_iff (accepted : call.refusal = none)
    (isServers : serversOf client call.key = .ok servers) (deliver : Nat → Delivery)
    (reply : Reply) : Arrived client call deliver reply ↔
      firstReply deliver (call.targets servers).length = some reply := by
  constructor
  · rintro ⟨-, found, isFound, first⟩
    rw [isServers] at isFound
    cases isFound
    exact first
  · exact fun first => ⟨accepted, servers, isServers, first⟩

theorem Call.perform_eq (accepted : call.refusal = none)
    (isServers : serversOf client call.key = .ok servers) (deliver : Nat → Delivery) :
    call.perform client deliver =
      if servers = [] then .ok ⟨client, connectErrorOrTimeout, none⟩
      else (askInTurn client sendFailed deliver (call.targets servers)).bind
        fun out => call.conclude out.1 out.2 := by
  rw [perform, accepted, Option.elim_none, isServers]
  rfl

theorem Call.targets_nil (call : Call) : call.targets [] = [] := by
  cases call <;> rfl

end Accepted

/-- Every call is truthful exactly if the reply that arrives is one it is written for. -/
theorem truthful_iff (client : ClientState) (call : Call) (deliver : Nat → Delivery)
    (started : Started client) :
    Truthful client call deliver ↔
      ∀ reply, Arrived client call deliver reply → call.Expects reply := by
  unfold Truthful
  cases refused : call.refusal with
  | some code =>
    rw [Call.perform, refused]
    refine iff_of_true ⟨_, rfl, fun success => ?_⟩ fun reply arrived => ?_
    · exact absurd success (Call.refusal_ne_success refused)
    · rw [Arrived, refused] at arrived
      cases arrived.1
  | none =>
    obtain ⟨servers, isServers, real, -⟩ := started.getServerId_ok (murMurHash call.key)
    change serversOf client call.key = .ok servers at isServers
    simp only [arrived_iff refused isServers, Call.perform_eq refused isServers]
    by_cases empty : servers = []
    · rw [if_pos empty, empty, call.targets_nil]
      refine iff_of_true ⟨_, rfl, fun success => ?_⟩ fun reply arrived => nomatch arrived
      cases success
    · rw [if_neg empty]
      obtain ⟨after, answer, asked, outcome⟩ :=
        askInTurn_ok (call.zero_notMem_targets real) deliver client
          (show sendFailed ≠ ReturnCode.success.code by decide)
      rw [asked]
      rcases outcome with ⟨reply, rfl, first⟩ | ⟨code, rfl, failure, first⟩
      · rw [first]
        simp only [Option.some.injEq, exists_eq_left', forall_eq']
        exact call.finish_truthful_iff after reply
      · rw [first]
        refine iff_of_true ⟨_, rfl, fun success => absurd success failure⟩ ?_
        exact fun reply arrived => nomatch arrived

def directClient : ClientState where
  direct := true
  dataServer := firstServer
  bucketCount := 1
  copyCount := 1
  dsServerList := [firstServer]
  configVersion := 0
  newConfigVersion := 0
  sendFailCount := 0

/-- The value of a key arrives, and the call that returns it is truthful. -/
theorem truthful_iff_replied :
    Truthful directClient (.get 0 [107])
      fun _ => .replied (.responseGet 1 ReturnCode.success.code [([107], [118])]) := by
  refine (truthful_iff _ _ _ ⟨by decide, by decide, fun _ => by decide⟩).mpr ?_
  rintro reply ⟨-, servers, found, arrived⟩
  cases found
  cases arrived
  exact fun _ => rfl

/-- A server that does not work yet answers `get` with a `response_return`, and the client reads
the version of a `response_get` that is not there. A reply of an unknown type is a success. -/
theorem get_reads_null_reply :
    get directClient 0 [107]
        (fun _ => .replied (.responseReturn 1 ReturnCode.serverCanNotWork.code)) =
      .error .nullReply ∧
    (put directClient 0 [107] [118] 0 0 (fun _ => .replied .other)).map Result.code =
      .ok ReturnCode.success.code := by
  decide +kernel

end Tair.Client
