/-
The way of an `hmget` from the client through the server and back. The engine marks a field that
is not there by an entry without bytes, and the vector of the reply passes such an entry over when
it is read.
-/

import Tair.Common.ReturnCode
import Tair.Packets.Frames
import Tair.Rdb.HashRefinement

namespace Tair.Rdb

open Tair.Library

/-! ### What a hash has under a field -/

namespace RedisHash

def valueOf (hash : RedisHash) (field : FieldArgument) : Except Fault (Option StringObject) :=
  (hash.entryOf field.bytes).map fun found =>
    found.bind fun entry => if entry.1 < field.timestamp then none else some entry.2

theorem entryOf_delete (hash : RedisHash) (deleted field : Bytes) :
    (hash.delete deleted).1.entryOf field =
      if deleted = field then .ok none else hash.entryOf field := by
  cases hash with
  | zipmap entries =>
    change Except.ok ((Keyed.find _ (Keyed.erase _ entries deleted) field).map _) = _
    rw [Keyed.find_erase]
    split_ifs <;> rfl
  | table entries =>
    change (Keyed.find tableKey (Keyed.erase tableKey entries deleted) field).mapM _ = _
    rw [Keyed.find_erase]
    split_ifs <;> rfl

/-- A lookup finds the value, and what it deletes nobody would have found. -/
theorem get_valueOf {hash after : RedisHash} {field : FieldArgument}
    {value : Option StringObject} (got : hash.get field = .ok (after, value)) :
    hash.valueOf field = .ok value ∧
      ∀ other, (other.bytes = field.bytes → other = field) →
        after.valueOf other = hash.valueOf other := by
  unfold RedisHash.get at got
  obtain ⟨found, isFound, got⟩ := ok_of_bind got
  cases found with
  | none =>
    cases got
    refine ⟨?_, fun _ _ => rfl⟩
    rw [valueOf, isFound]
    rfl
  | some entry =>
    have known : hash.valueOf field =
        .ok (if entry.1 < field.timestamp then none else some entry.2) := by
      rw [valueOf, isFound]
      rfl
    rw [known]
    dsimp only at got
    by_cases old : entry.1 < field.timestamp
    · rw [if_pos old] at got ⊢
      cases got
      refine ⟨rfl, fun other same => ?_⟩
      by_cases hit : field.bytes = other.bytes
      · rw [same hit.symm, known, if_pos old, valueOf, entryOf_delete, if_pos rfl]
        rfl
      · rw [valueOf, entryOf_delete, if_neg hit]
        rfl
    · rw [if_neg old] at got ⊢
      cases got
      exact ⟨rfl, fun _ _ => rfl⟩

def textOf (clocks : Bytes → UInt32) (hash : RedisHash) (field : Bytes) : Bytes :=
  (hash.valueOf ⟨field, clocks field⟩).toOption.join.elim [] StringObject.decoded

end RedisHash

def Answer.nodes {σ : Type} : Answer σ → List (ValueNode σ)
  | .values nodes => nodes
  | _ => []

/-- The nodes of an `hmget` are the values of the fields in the hash as it was. -/
theorem read_getNodes {σ : Type} {clocks : Bytes → UInt32} {fields : List Bytes}
    {hash after : RedisHash} {nodes : List (ValueNode σ)}
    (got : getNodes (fields.map fun field => ⟨field, clocks field⟩) hash = .ok (after, nodes)) :
    nodes.mapM ValueNode.read = .ok (fields.map (hash.textOf clocks)) := by
  induction fields generalizing hash nodes with
  | nil =>
    cases got
    rfl
  | cons field rest ih =>
    obtain ⟨first, isFirst, got⟩ := ok_of_bind got
    obtain ⟨others, isOthers, got⟩ := ok_of_bind got
    cases got
    obtain ⟨found, kept⟩ := RedisHash.get_valueOf isFirst
    have same : rest.map (first.1.textOf clocks) = rest.map (hash.textOf clocks) := by
      refine List.map_congr_left fun other _ => ?_
      unfold RedisHash.textOf
      rw [kept]
      intro bytes
      dsimp only at bytes
      rw [bytes]
    have node : (first.2.elim ValueNode.null hash.node : ValueNode σ).read =
        .ok (hash.textOf clocks field) := by
      rw [RedisHash.textOf, found]
      cases first.2 with
      | none => rfl
      | some value => exact RedisHash.read_node hash value
    rw [List.mapM_cons, node, ih isOthers, same]
    rfl

end Tair.Rdb

namespace Tair.Client

open Tair.Library Tair.Common Tair.Packets Tair.Rdb

/-! ### Vectors on the wire -/

variable (entries : List (List UInt8))

theorem putDataVector_length :
    (putDataVector entries).length = 4 + (entries.map fun entry => 4 + entry.length).sum := by
  unfold putDataVector
  rw [List.length_append, writeInt32_length, List.length_flatMap]
  refine congrArg (fun sizes => 4 + List.sum sizes) (List.map_congr_left fun entry _ => ?_)
  rw [putDataEntry, List.length_append, writeInt32_length]

theorem length_le_putDataVector {entries : List (List UInt8)} {entry : List UInt8}
    (member : entry ∈ entries) : entry.length ≤ (putDataVector entries).length := by
  rw [putDataVector_length]
  have part := List.single_le_sum (fun _ _ => Nat.zero_le _) _
    (List.mem_map_of_mem (f := fun entry : List UInt8 => 4 + entry.length) member)
  omega

theorem count_le_putDataVector : entries.length ≤ (putDataVector entries).length := by
  rw [putDataVector_length]
  have part := List.card_nsmul_le_sum (entries.map fun entry => 4 + entry.length) 1 (by
    intro size member
    obtain ⟨entry, _, rfl⟩ := List.mem_map.mp member
    omega)
  rw [List.length_map, smul_eq_mul] at part
  omega

theorem spells_vector {entries : List (List UInt8)}
    (small : (putDataVector entries).length < 2147483648) :
    Atom.vector.Spells (.vector (solid entries)) (putDataVector entries) := by
  refine .vector ((count_le_putDataVector entries).trans_lt small) fun entry member => ?_
  exact (length_le_putDataVector member).trans_lt small

theorem solid_eq_self_iff : solid entries = entries ↔ [] ∉ entries := by
  rw [solid, List.filter_eq_self]
  constructor
  · intro here empty
    exact of_decide_eq_true (here [] empty) rfl
  · intro none entry member
    refine decide_eq_true fun empty => none ?_
    rwa [empty] at member

/-! ### The packets -/

/-- `request_hmget::encode`. -/
def encodeRequestHmget (area : UInt16) (key : List UInt8) (fields : List (List UInt8)) :
    List UInt8 :=
  writeInt8 0 ++ (writeInt16 area ++ (putDataEntry key ++ putDataVector fields))

/-- `response_hmget::encode`. -/
def encodeResponseHmget (configVersion : UInt32) (version : UInt16) (code : UInt32)
    (values : List (List UInt8)) : List UInt8 :=
  writeInt32 configVersion ++ (writeInt16 version ++ (writeInt32 code ++ putDataVector values))

def received (packetClass : PacketClass) (body : List UInt8) : Option Fields :=
  if body.length ≤ largestBody then ((packetClass.decode body.length).run body).value? else none

/-! ### The server -/

def redisTairCode : RedisCode → Int
  | .ok => 0
  | .okButCzero => -3979
  | .okNotExist => -3998
  | .errVersionError => -3997
  | .errWrongTypeError => -3996
  | .errOutOfRange => -3992
  | .errIsNotNumber => -20001
  | .errIsNotInteger => -20002
  | .okButAlreadyExist => -20004
  | .okRangeHaveNone => -20005
  | .errDataLenLimited => -20007
  | .errCnegoError => -3999
  | .errWrongNumberArguments => -3999

section Served

variable {σ : Type}

def codeWord (code : Int) : UInt32 := UInt32.ofInt code

/-- `tair_manager::hmget` for a key with this entry, and the reply of the request processor. The
time stamps of the fields come from the filters of the area. -/
def serveHmget (clocks : List UInt8 → UInt32) (entry : Entry σ) (configVersion : UInt32)
    (key : List UInt8) (fields : List (List UInt8)) : Except Rdb.Fault (List UInt8) :=
  if tairMaxKeySize ≤ key.length ∨ key.length < 1 ∨
      ∃ field ∈ fields, tairMaxDataSize ≤ field.length ∨ field.length < 1 then
    .ok (encodeResponseHmget configVersion 0 (codeWord ReturnCode.itemsizeError.code) [])
  else do
    let outcome ← hmgetCommand (fields.map fun field => ⟨field, clocks field⟩) (some entry)
    let values ← outcome.answer.nodes.mapM ValueNode.read
    pure (encodeResponseHmget configVersion outcome.version (codeWord (redisTairCode outcome.code))
      values)

/-- The server's side: a request that is not decoded gets no reply. -/
def answerHmget (clocks : List UInt8 → UInt32) (entry : Entry σ) (configVersion : UInt32)
    (body : List UInt8) : Except Rdb.Fault (Option (List UInt8)) :=
  (received requestHmget body).elim (.ok none) fun request =>
    (serveHmget clocks entry configVersion ((request.lookup .key).elim [] Value.data)
      ((request.lookup .fields).elim [] Value.entries)).map some

end Served

/-! ### The client -/

def keyEntryCheck (key : List UInt8) : Bool :=
  decide (key ≠ [] ∧ key ≠ [0] ∧ key.length < tairMaxKeySize)

def dataEntryCheck (data : List UInt8) : Bool :=
  decide (data ≠ [] ∧ data.length < tairMaxDataSize)

def vectorDataCheck : Bool := entries.all dataEntryCheck

def readReply (reply : Fields) : Int × List (List UInt8) :=
  (signed ((reply.lookup .code).elim 0 Value.word), (reply.lookup .values).elim [] Value.entries)

def timeout : Int := -3989

/-- `tair_client_impl::hmget` while its key has this entry at the server. -/
def hmget {σ : Type} (clocks : List UInt8 → UInt32) (entry : Entry σ) (configVersion : UInt32)
    (area : Int) (key : List UInt8) (fields : List (List UInt8)) :
    Except Rdb.Fault (Int × List (List UInt8)) :=
  if keyEntryCheck key = false then .ok (ReturnCode.itemsizeError.code, [])
  else if vectorDataCheck fields = false then .ok (ReturnCode.itemsizeError.code, [])
  else if area < 0 ∨ tairMaxAreaCount ≤ area then .ok (ReturnCode.invalidArgument.code, [])
  else do
    let reply ← answerHmget clocks entry configVersion
      (encodeRequestHmget (UInt16.ofInt area) key fields)
    pure ((reply.bind (received responseHmget)).elim (timeout, []) readReply)

/-! ### Positions -/

variable {key : List UInt8} {fields values : List (List UInt8)} {configVersion : UInt32}

theorem received_requestHmget {area : UInt16} {request : Fields}
    (checked : keyEntryCheck key = true)
    (got : received requestHmget (encodeRequestHmget area key fields) = some request) :
    request.lookup .key = some (.bytes key) ∧
      request.lookup .fields = some (.vector (solid fields)) := by
  unfold received at got
  split_ifs at got with small
  obtain ⟨_, _, short⟩ := of_decide_eq_true checked
  unfold encodeRequestHmget at small got
  unfold largestBody at small
  unfold tairMaxKeySize at short
  simp only [List.length_append, writeInt8_length, writeInt16_length] at small
  have vector : (putDataVector fields).length < 2147483648 := by omega
  have spells := @PacketClass.Spells.long requestHmget _ _ (by
      simp only [List.length_append, writeInt8_length, writeInt16_length]
      change 3 ≤ _
      omega)
    (Layout.Spells.item (.int8 0) (Layout.Spells.item (.int16 area)
      (Layout.Spells.item (@Atom.Spells.entry key (by omega))
        (Layout.Spells.item (spells_vector vector) .done))))
  have run := spells.run []
  simp only [List.append_nil] at run
  rw [run] at got
  cases got
  exact ⟨rfl, rfl⟩

theorem readReply_of_received {code : UInt32} {version : UInt16} {reply : Fields}
    (got : received responseHmget (encodeResponseHmget configVersion version code values) =
      some reply) : readReply reply = (signed code, solid values) := by
  unfold received at got
  split_ifs at got with small
  unfold encodeResponseHmget at small got
  unfold largestBody at small
  simp only [List.length_append, writeInt32_length, writeInt16_length] at small
  have vector : (putDataVector values).length < 2147483648 := by omega
  have spells := @PacketClass.Spells.long responseHmget _ _ (Nat.zero_le _)
    (Layout.Spells.item (.checked32 configVersion) (Layout.Spells.item (.checked16 version)
      (Layout.Spells.item (.checked32 code) (Layout.Spells.item (spells_vector vector) .done))))
  have run := spells.run []
  simp only [List.append_nil] at run
  rw [run] at got
  cases got
  rfl

theorem solid_of_vectorDataCheck (checked : vectorDataCheck fields = true) :
    solid fields = fields := by
  rw [solid_eq_self_iff]
  intro empty
  exact (of_decide_eq_true (List.all_eq_true.mp checked [] empty)).1 rfl

theorem ne_success {code : Int} {others : List (List UInt8)}
    (other : code ≠ ReturnCode.success.code) :
    (Except.ok (code, others) : Except Rdb.Fault _) ≠ .ok (ReturnCode.success.code, values) :=
  fun same => other (congrArg Prod.fst (Except.ok.inj same))

theorem serveHmget_of_hash {σ : Type} {clocks : List UInt8 → UInt32} {entry : Entry σ}
    {hash : RedisHash} {body : List UInt8} (here : entry.value = .hash hash)
    (served : serveHmget clocks entry configVersion key fields = .ok body) :
    (∃ code, signed code ≠ ReturnCode.success.code ∧
        body = encodeResponseHmget configVersion 0 code []) ∨
      body = encodeResponseHmget configVersion entry.version 0
        (fields.map (hash.textOf clocks)) := by
  unfold serveHmget at served
  split_ifs at served with wrong
  · cases served
    exact .inl ⟨_, by decide, rfl⟩
  · obtain ⟨out, commanded, served⟩ := ok_of_bind served
    obtain ⟨values, isRead, served⟩ := ok_of_bind served
    cases entry with
    | mk value version logiclock =>
      cases here
      obtain ⟨got, isGot, commanded⟩ := ok_of_bind (show getNodes _ hash >>= _ = _ from commanded)
      cases commanded
      cases served
      have same := Except.ok.inj (isRead.symm.trans (read_getNodes isGot))
      rw [same]
      exact .inr rfl

/-- A reply that says success has the values of all fields, without the empty ones. -/
theorem hmget_values {σ : Type} {clocks : List UInt8 → UInt32} {entry : Entry σ} {hash : RedisHash}
    {area : Int} (here : entry.value = .hash hash)
    (gave : hmget clocks entry configVersion area key fields =
      .ok (ReturnCode.success.code, values)) :
    values = solid (fields.map (hash.textOf clocks)) := by
  unfold hmget at gave
  split_ifs at gave with badKey badFields badArea
  · exact absurd gave (ne_success (by decide))
  · exact absurd gave (ne_success (by decide))
  · exact absurd gave (ne_success (by decide))
  rw [Bool.not_eq_false] at badKey badFields
  obtain ⟨reply, answered, gave⟩ := ok_of_bind gave
  cases requested : received requestHmget
      (encodeRequestHmget (UInt16.ofInt area) key fields) with
  | none =>
    rw [answerHmget, requested] at answered
    cases answered
    exact absurd gave (ne_success (by decide))
  | some request =>
    obtain ⟨isKey, isFields⟩ := received_requestHmget badKey requested
    rw [answerHmget, requested] at answered
    dsimp only [Option.elim_some] at answered
    rw [isKey, isFields] at answered
    obtain ⟨body, served, isReply⟩ := ok_of_map answered
    subst isReply
    change serveHmget clocks entry configVersion key (solid fields) = .ok body at served
    rw [solid_of_vectorDataCheck badFields] at served
    cases accepted : received responseHmget body with
    | none =>
      rw [Option.bind_some, accepted] at gave
      exact absurd gave (ne_success (by decide))
    | some response =>
      rw [Option.bind_some, accepted] at gave
      have result : readReply response = (ReturnCode.success.code, values) :=
        Except.ok.inj gave
      rcases serveHmget_of_hash here served with ⟨code, failed, rfl⟩ | rfl
      · rw [readReply_of_received accepted] at result
        exact absurd (congrArg Prod.fst result) failed
      · rw [readReply_of_received accepted] at result
        exact (congrArg Prod.snd result).symm

/-- The positions are kept exactly when no entry is empty, on the wire and in what a client gets
from an `hmget`. -/
theorem positions_kept_iff {σ : Type} :
    (∀ entries : List (List UInt8), entries.length < 2147483648 →
      (∀ entry ∈ entries, entry.length < 2147483648) → ∀ rest : List UInt8,
        (getDataVector.run (putDataVector entries ++ rest) = .done entries rest ↔
          [] ∉ entries)) ∧
    ∀ (clocks : List UInt8 → UInt32) (entry : Entry σ) (hash : RedisHash)
      (configVersion : UInt32) (area : Int) (key : List UInt8)
      (fields values : List (List UInt8)), entry.value = .hash hash →
      hmget clocks entry configVersion area key fields =
          .ok (ReturnCode.success.code, values) →
        (values = fields.map (hash.textOf clocks) ↔ [] ∉ fields.map (hash.textOf clocks)) := by
  constructor
  · intro entries few small rest
    rw [run_getDataVector few small, ← solid_eq_self_iff, Reading.done.injEq]
    exact and_iff_left rfl
  · intro clocks entry hash configVersion area key fields values present returned
    rw [hmget_values present returned]
    exact solid_eq_self_iff _

def twoFields : RedisHash :=
  .zipmap [⟨[2], 0, [9]⟩, ⟨[3], 0, [8, 7]⟩]

def twoFieldEntry : Entry Nat := { value := .hash twoFields, version := 1, logiclock := 1 }

theorem positions_kept_present :
    hmget (fun _ => 0) twoFieldEntry 1 0 [5] [[3], [2], [3]] =
        .ok (ReturnCode.success.code, [[8, 7], [9], [8, 7]]) ∧
      [[8, 7], [9], [8, 7]] = [[3], [2], [3]].map (twoFields.textOf fun _ => 0) := by
  have returned : hmget (fun _ => 0) twoFieldEntry 1 0 [5] [[3], [2], [3]] =
      .ok (ReturnCode.success.code, [[8, 7], [9], [8, 7]]) := by
    decide +kernel
  exact ⟨returned, (positions_kept_iff.2 _ _ _ _ _ _ _ _ rfl returned).mpr (by decide +kernel)⟩

/-- The second of two values comes first when the first field is absent. -/
theorem positions_shift :
    hmget (fun _ => 0) twoFieldEntry 1 0 [5] [[1], [2]] =
        .ok (ReturnCode.success.code, [[9]]) ∧
      [[1], [2]].map (twoFields.textOf fun _ => 0) = [[], [9]] ∧
      getDataVector.run (putDataVector [[], [9]]) = .done [[9]] [] := by
  decide +kernel

end Tair.Client
