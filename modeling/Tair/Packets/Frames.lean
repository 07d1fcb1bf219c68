/-
A connection that reads frames from a socket. The decoder works on the buffer of the connection,
where the next frames may wait, and the connection goes on wherever it stops. Frames spelled as
their class reads them are decoded from their own bytes, however the stream is cut.
-/

import Tair.Library.Machine
import Tair.Packets.Classes

namespace Tair.Packets

open Tair.Library

def packetFlag : UInt32 := 0x6D426454

def headerSize : Nat := 16

def largestBody : Nat := 0x4000000

/-- `_dataLen` is an `int`. -/
structure Header where
  chid : UInt32
  pcode : UInt32
  dataLen : Int
deriving DecidableEq, Repr

/-- What a handler is called with: a packet with its header, or the bad packet; a client's handler
also gets the arguments of the channel. -/
structure Delivery where
  channel : Option Nat
  packet : Option (Header × Fields)
deriving DecidableEq, Repr

/-- Where packets go. A client hands a packet over only if it waits for it on an open channel;
`none` stands for a server. With `_batchPushPacket` a server collects packets in `_inputQueue`. -/
structure Sink where
  channels : Option (List Nat)
  batchPushPacket : Bool
  inputQueue : List Delivery
  delivered : List Delivery
deriving DecidableEq, Repr

/-- `_gotHeader` and `_packetHeader` are one option here. -/
structure Connection where
  input : List UInt8
  header : Option Header
  sink : Sink
  broken : Bool
deriving DecidableEq, Repr

def channelId (chid : UInt32) : Nat := (chid &&& 0xFFFFFFF).toNat

namespace Sink

variable (sink : Sink)

/-- `offerChannel` finds the channel, on a client. -/
def accepts (chid : UInt32) : Bool :=
  sink.channels.elim true fun channels => decide (channelId chid ∈ channels)

def batches : Bool := sink.channels.isNone && sink.batchPushPacket

/-- `handleBatchPacket`. -/
def flush : Sink :=
  { sink with delivered := sink.delivered ++ sink.inputQueue, inputQueue := [] }

def give (chid : UInt32) (packet : Option (Header × Fields)) : Sink :=
  { sink with
    channels := sink.channels.map (·.erase (channelId chid))
    delivered := sink.delivered ++ [⟨sink.channels.map fun _ => channelId chid, packet⟩] }

/-- The bad packet does not go through the queue. -/
def hand (chid : UInt32) (packet : Option (Header × Fields)) : Sink :=
  if sink.batches ∧ packet.isSome then
    let pushed := { sink with inputQueue := sink.inputQueue ++ [⟨none, packet⟩] }
    if 15 ≤ pushed.inputQueue.length then pushed.flush else pushed
  else sink.give chid packet

end Sink

namespace Connection

/-- The words of a header, as `getPacketInfo` reads them. -/
def readHeader : Reader (UInt32 × Header) := do
  let flag ← readInt32
  let chid ← readInt32
  let pcode ← readInt32
  let dataLen ← readInt32
  pure (flag, ⟨chid, pcode, signed dataLen⟩)

def isBroken (flag : UInt32) (header : Header) : Bool :=
  decide (flag ≠ packetFlag ∨ header.dataLen < 0 ∨ (largestBody : Int) < header.dataLen)

variable (connection : Connection)

def accept : Reading (UInt32 × Header) → Connection
  | .done (flag, header) rest =>
    { connection with input := rest, header := some header, broken := isBroken flag header }
  | _ => connection

/-- `tair_packet_streamer::getPacketInfo`, unless there is a header already. -/
def getPacketInfo : Connection :=
  if connection.header.isSome then connection
  else if connection.input.length < headerSize then connection
  else connection.accept (readHeader.run connection.input)

/-- What `decode` returns goes to the handler, and the buffer stays where `decode` left it. -/
def finish (header : Header) : Reading Fields → Except Misuse Connection
  | .done fields rest =>
    .ok { connection with
      input := rest
      sink := connection.sink.hand header.chid (some (header, fields)) }
  | .refused rest =>
    .ok { connection with input := rest, sink := connection.sink.hand header.chid none }
  | .misused kind => .error kind

def drainData (header : Header) : List UInt8 :=
  connection.input.drop header.dataLen.toNat

/-- `Connection::handlePacket` with `tair_packet_streamer::decode`. -/
def handlePacket (header : Header) : Except Misuse Connection :=
  if connection.sink.accepts header.chid then
    (createPacket header.pcode.toNat).elim
      (.ok { connection with
        input := connection.drainData header
        sink := connection.sink.hand header.chid none })
      fun packetClass =>
        connection.finish header ((packetClass.decode header.dataLen.toNat).run connection.input)
  else .ok { connection with input := connection.drainData header }

/-- The packets that have come in as a whole. Every round takes a header off the buffer, so there
are no more of them than bytes. -/
def readPackets : Nat → Connection → Except Misuse Connection
  | 0, connection => .ok connection
  | rounds + 1, connection =>
    let informed := connection.getPacketInfo
    if informed.broken then .ok informed
    else informed.header.elim (.ok informed) fun header =>
      if header.dataLen ≤ informed.input.length then do
        let handled ← informed.handlePacket header
        readPackets rounds { handled with header := none }
      else .ok informed

/-- What `readData` does with the bytes of one read. Nothing is read from a connection that is
broken. -/
def pour (bytes : List UInt8) : Except Misuse Connection :=
  if connection.broken then .ok connection
  else
    let poured := { connection with input := connection.input ++ bytes }
    readPackets (poured.input.length + 2) poured

/-- `TCPConnection::readData` over the reads of a socket. A read with the flag is the last of its
call, behind which the queue is flushed. -/
def readData (reads : List (List UInt8 × Bool)) : Except Misuse Connection :=
  reads.foldlM (fun connection read => do
    let poured ← connection.pour read.1
    pure (if read.2 then { poured with sink := poured.sink.flush } else poured)) connection

def fresh (sink : Sink) : Connection := ⟨[], none, sink, false⟩

end Connection

/-! ### Frames -/

/-- A frame with a valid header: the length that it announces is the length of its body. -/
structure Frame where
  chid : UInt32
  pcode : UInt32
  body : List UInt8
  small : body.length ≤ largestBody

namespace Frame

def header (frame : Frame) : Header := ⟨frame.chid, frame.pcode, frame.body.length⟩

def headerBytes (frame : Frame) : List UInt8 :=
  writeInt32 packetFlag ++ (writeInt32 frame.chid ++ (writeInt32 frame.pcode ++
    writeInt32 (UInt32.ofNat frame.body.length)))

def wire (frame : Frame) : List UInt8 := frame.headerBytes ++ frame.body

def packet (frame : Frame) : Option Fields :=
  (createPacket frame.pcode.toNat).bind fun packetClass =>
    ((packetClass.decode frame.body.length).run frame.body).value?

/-- What comes of a frame on its own, if packets go the given way. -/
def arrive (way : Sink → UInt32 → Option (Header × Fields) → Sink) (sink : Sink) (frame : Frame) :
    Sink :=
  if sink.accepts frame.chid then
    way sink frame.chid (frame.packet.map fun fields => (frame.header, fields))
  else sink

/-- The code is unknown, or the body is spelled as its class reads it: the fields one after the
other, with the lengths that they announce. -/
def Complete (frame : Frame) : Prop :=
  ∀ packetClass, createPacket frame.pcode.toNat = some packetClass →
    ∃ result, packetClass.Spells result frame.body

/-- On a server with a queue, frames without a packet come before those with one. -/
def Orderly (sink : Sink) (frames : List Frame) : Prop :=
  sink.batches = true →
    frames.Pairwise fun first later => first.packet.isSome = true → later.packet.isSome = true

end Frame

/-! ### The queue -/

section Queue

variable {sink : Sink} {frame : Frame} {frames : List Frame}

theorem Sink.flush_flush : sink.flush.flush = sink.flush := by
  simp only [flush, List.append_nil]

theorem Sink.batches_hand (chid : UInt32) (packet : Option (Header × Fields)) :
    (sink.hand chid packet).batches = sink.batches := by
  unfold hand
  dsimp only
  split_ifs
  · rfl
  · rfl
  · unfold batches give
    rw [Option.isNone_map]

/-- A packet goes behind the queue, and what does not go there finds it empty. -/
theorem Sink.flush_hand {chid : UInt32} {packet : Option (Header × Fields)}
    (behind : sink.inputQueue = [] ∨ sink.batches = true ∧ packet.isSome = true) :
    (sink.hand chid packet).flush = sink.flush.give chid packet := by
  unfold hand
  split_ifs with queued
  · have server : sink.channels = none :=
      Option.isNone_iff_eq_none.mp (Bool.and_eq_true_iff.mp queued.1).1
    obtain ⟨channels, batch, queue, delivered⟩ := sink
    cases server
    dsimp only
    split_ifs <;> simp [flush, give]
  · obtain ⟨channels, batch, queue, delivered⟩ := sink
    cases behind.resolve_right queued
    simp [flush, give]

/-- What waits in the queue may stay there: only packets follow. -/
structure Frame.Waits (sink : Sink) (frames : List Frame) : Prop where
  orderly : Orderly sink frames
  behind : sink.inputQueue = [] ∨
    sink.batches = true ∧ ∀ frame ∈ frames, frame.packet.isSome = true

theorem Frame.Waits.hand (waits : Waits sink (frame :: frames)) :
    (frame.arrive .hand sink).flush = frame.arrive .give sink.flush ∧
      Waits (frame.arrive .hand sink) frames := by
  have same : (frame.arrive .hand sink).batches = sink.batches := by
    unfold arrive
    split_ifs
    · exact Sink.batches_hand _ _
    · rfl
  have first : sink.inputQueue = [] ∨ sink.batches = true ∧ frame.packet.isSome = true :=
    waits.behind.imp_right fun packets => ⟨packets.1, packets.2 frame List.mem_cons_self⟩
  refine ⟨?_, fun batches => ?_, ?_⟩
  · unfold arrive
    change _ = if sink.accepts frame.chid then _ else _
    split_ifs
    · apply Sink.flush_hand
      rw [Option.isSome_map]
      exact first
    · rfl
  · exact (List.pairwise_cons.mp (waits.orderly (same.symm.trans batches))).2
  · rw [same]
    by_cases queued : sink.batches = true ∧ frame.packet.isSome = true
    · exact .inr ⟨queued.1, fun other member =>
        (List.pairwise_cons.mp (waits.orderly queued.1)).1 other member queued.2⟩
    · left
      unfold arrive Sink.hand
      rw [Option.isSome_map, if_neg queued]
      split_ifs <;> exact first.resolve_right queued

end Queue

/-! ### One frame -/

section Steps

variable {connection : Connection} {frame : Frame} {rest : List UInt8}

theorem Frame.headerBytes_length (frame : Frame) : frame.headerBytes.length = headerSize := by
  unfold Frame.headerBytes
  simp only [List.length_append, writeInt32_length]
  rfl

theorem run_readHeader (flag chid pcode dataLen : UInt32) :
    Connection.readHeader.run (writeInt32 flag ++ (writeInt32 chid ++ (writeInt32 pcode ++
      (writeInt32 dataLen ++ rest)))) = .done (flag, ⟨chid, pcode, signed dataLen⟩) rest := by
  simp only [Connection.readHeader, Reader.run_bind, run_readInt32, Reading.andThen,
    Reader.pure_eq, Reader.run_done]

theorem Frame.not_broken (frame : Frame) : Connection.isBroken packetFlag frame.header = false := by
  have small := frame.small
  unfold Connection.isBroken Frame.header
  apply decide_eq_false
  intro broken
  rcases broken with ne | negative | large
  · exact ne rfl
  · dsimp only at negative
    omega
  · dsimp only at large
    omega

theorem Connection.getPacketInfo_frame (header : connection.header = none)
    (input : connection.input = frame.headerBytes ++ rest) :
    connection.getPacketInfo =
      { connection with input := rest, header := some frame.header, broken := false } := by
  have long : ¬ connection.input.length < headerSize := by
    rw [input, List.length_append, frame.headerBytes_length]
    omega
  have small : frame.body.length < 2147483648 := by
    have bound := frame.small
    unfold largestBody at bound
    omega
  unfold Connection.getPacketInfo
  rw [header, if_neg (by simp), if_neg long, input, Frame.headerBytes, List.append_assoc,
    List.append_assoc, List.append_assoc, run_readHeader, signed_ofNat small, Connection.accept]
  rw [show Connection.isBroken packetFlag ⟨frame.chid, frame.pcode, frame.body.length⟩ = false from
    frame.not_broken]
  rfl

theorem Connection.handlePacket_frame (complete : frame.Complete)
    (input : connection.input = frame.body ++ rest) :
    connection.handlePacket frame.header =
      .ok { connection with input := rest, sink := frame.arrive .hand connection.sink } := by
  have drained : connection.drainData frame.header = rest := by
    unfold Connection.drainData
    rw [input]
    exact List.drop_left
  unfold Connection.handlePacket Frame.arrive
  change (if connection.sink.accepts frame.chid then _ else _) = _
  split_ifs with accepted
  · change (createPacket frame.pcode.toNat).elim _ _ = _
    unfold Frame.packet
    cases known : createPacket frame.pcode.toNat with
    | none =>
      rw [Option.elim_none, drained]
      rfl
    | some packetClass =>
      obtain ⟨result, spells⟩ := complete packetClass known
      have alone := spells.run []
      rw [List.append_nil] at alone
      rw [Option.elim_some, Option.bind_some, alone, input]
      change connection.finish frame.header
        ((packetClass.decode frame.body.length).run (frame.body ++ rest)) = _
      rw [spells.run rest]
      cases result with
      | none => rfl
      | some fields => rfl
  · rw [drained]

end Steps

/-! ### Streams of frames -/

/-- A connection between its frames: what it holds and what is still to come are the frames that
are left, the first of them perhaps without its header. -/
inductive Pending (connection : Connection) : List Frame → List UInt8 → Prop
  | between {left : List Frame} {remaining : List UInt8} (header : connection.header = none)
      (bytes : connection.input ++ remaining = left.flatMap Frame.wire)
      (few : connection.input.length < headerSize) : Pending connection left remaining
  | within {frame : Frame} {left : List Frame} {remaining : List UInt8}
      (header : connection.header = some frame.header)
      (bytes : connection.input ++ remaining = frame.body ++ left.flatMap Frame.wire)
      (few : connection.input.length < frame.body.length) :
      Pending connection (frame :: left) remaining

def Handed (frames : List Frame) (remaining : List UInt8) (sink : Sink)
    (connection : Connection) : Prop :=
  ∃ read left, frames = read ++ left ∧ connection.broken = false ∧
    connection.sink.flush = read.foldl (Frame.arrive .give) sink ∧
    Frame.Waits connection.sink left ∧ Pending connection left remaining

theorem split_append {front rest first last : List UInt8} (same : front ++ rest = first ++ last)
    (long : first.length ≤ front.length) : ∃ middle, front = first ++ middle ∧
      middle ++ rest = last := by
  rcases List.append_eq_append_iff.mp same with ⟨extra, isFirst, isRest⟩ | ⟨middle, isFront, isLast⟩
  · have none : extra = [] := by
      apply List.eq_nil_of_length_eq_zero
      rw [isFirst, List.length_append] at long
      omega
    rw [none] at isFirst isRest
    refine ⟨[], ?_, isRest⟩
    rw [isFirst, List.append_nil, List.append_nil]
  · exact ⟨middle, isFront, isLast.symm⟩

namespace Connection

variable {connection : Connection} {remaining : List UInt8}

theorem readPackets_informed {informed : Connection} (rounds : Nat)
    (isInformed : connection.getPacketInfo = informed) (header : informed.header.isSome = true) :
    readPackets (rounds + 1) connection = readPackets (rounds + 1) informed := by
  have again : informed.getPacketInfo = informed := by
    unfold getPacketInfo
    rw [if_pos header]
  rw [readPackets, readPackets, isInformed, again]

theorem readPackets_few (rounds : Nat) (header : connection.header = none)
    (unbroken : connection.broken = false) (few : connection.input.length < headerSize) :
    readPackets (rounds + 1) connection = .ok connection := by
  have informed : connection.getPacketInfo = connection := by
    unfold getPacketInfo
    rw [if_pos few, ite_self]
  rw [readPackets, informed, if_neg (by rw [unbroken]; exact Bool.false_ne_true), header,
    Option.elim_none]

/-- A connection that has the header of a frame, where the frames behind it are read as they
should. -/
theorem readPackets_within {frame : Frame} {frames : List Frame} {rounds : Nat}
    (header : connection.header = some frame.header) (unbroken : connection.broken = false)
    (complete : frame.Complete) (waits : Frame.Waits connection.sink (frame :: frames))
    (bytes : connection.input ++ remaining = frame.body ++ frames.flatMap Frame.wire)
    (behind : ∀ rest sink, connection.input = frame.body ++ rest → Frame.Waits sink frames →
      ∃ final, readPackets rounds ⟨rest, none, sink, false⟩ = .ok final ∧
        Handed frames remaining sink.flush final) :
    ∃ final, readPackets (rounds + 1) connection = .ok final ∧
      Handed (frame :: frames) remaining connection.sink.flush final := by
  have informed : connection.getPacketInfo = connection := by
    unfold getPacketInfo
    rw [header]
    rfl
  rw [readPackets, informed, if_neg (by rw [unbroken]; exact Bool.false_ne_true), header,
    Option.elim_some]
  by_cases whole : frame.header.dataLen ≤ connection.input.length
  · have long : frame.body.length ≤ connection.input.length := by
      have same : frame.header.dataLen = frame.body.length := rfl
      omega
    obtain ⟨rest, input, -⟩ := split_append bytes long
    obtain ⟨flushed, later⟩ := waits.hand
    obtain ⟨final, runs, read, left, rfl, handed⟩ := behind rest _ input later
    rw [flushed] at handed
    refine ⟨final, ?_, frame :: read, left, rfl, handed⟩
    rw [if_pos whole, handlePacket_frame complete input]
    dsimp only [bind, Except.bind]
    rw [unbroken]
    exact runs
  · have few : connection.input.length < frame.body.length := by
      have same : frame.header.dataLen = frame.body.length := rfl
      omega
    rw [if_neg whole]
    exact ⟨connection, rfl, [], frame :: frames, rfl, unbroken, rfl, waits,
      .within header bytes few⟩

theorem readPackets_between {frames : List Frame} {rounds : Nat}
    (header : connection.header = none) (unbroken : connection.broken = false)
    (complete : ∀ frame ∈ frames, frame.Complete) (waits : Frame.Waits connection.sink frames)
    (bytes : connection.input ++ remaining = frames.flatMap Frame.wire)
    (enough : connection.input.length < rounds) :
    ∃ final, readPackets rounds connection = .ok final ∧
      Handed frames remaining connection.sink.flush final := by
  induction frames generalizing connection rounds with
  | nil =>
    have empty : connection.input = [] := (List.append_eq_nil_iff.mp bytes).1
    have few : connection.input.length < headerSize := by
      rw [empty]
      decide
    obtain ⟨rounds, rfl⟩ : ∃ less, rounds = less + 1 := ⟨rounds - 1, by omega⟩
    exact ⟨connection, readPackets_few rounds header unbroken few, [], [], rfl, unbroken, rfl,
      waits, .between header bytes few⟩
  | cons frame others ih =>
    obtain ⟨rounds, rfl⟩ : ∃ less, rounds = less + 1 := ⟨rounds - 1, by omega⟩
    by_cases few : connection.input.length < headerSize
    · exact ⟨connection, readPackets_few rounds header unbroken few, [], frame :: others, rfl,
        unbroken, rfl, waits, .between header bytes few⟩
    · have long : frame.headerBytes.length ≤ connection.input.length := by
        rw [frame.headerBytes_length]
        omega
      rw [List.flatMap_cons, Frame.wire, List.append_assoc] at bytes
      obtain ⟨body, input, bytes⟩ := split_append bytes long
      rw [readPackets_informed rounds (getPacketInfo_frame header input) rfl]
      refine @readPackets_within ⟨body, some frame.header, connection.sink, false⟩ _ _ _ _ rfl rfl
        (complete frame List.mem_cons_self) waits bytes ?_
      intro rest sink isBody later
      dsimp only at isBody
      apply ih rfl rfl (fun other member => complete other (List.mem_cons_of_mem _ member)) later
      · rw [isBody, List.append_assoc] at bytes
        exact List.append_cancel_left bytes
      · have shorter : rest.length + headerSize ≤ connection.input.length := by
          rw [input, isBody, List.length_append, List.length_append, frame.headerBytes_length]
          omega
        dsimp only
        unfold headerSize at shorter
        omega

theorem pour_pending {frames : List Frame} {chunk : List UInt8}
    (unbroken : connection.broken = false) (complete : ∀ frame ∈ frames, frame.Complete)
    (waits : Frame.Waits connection.sink frames)
    (pending : Pending connection frames (chunk ++ remaining)) :
    ∃ final, connection.pour chunk = .ok final ∧
      Handed frames remaining connection.sink.flush final := by
  obtain ⟨poured, isPoured⟩ : ∃ poured,
      ({ connection with input := connection.input ++ chunk } : Connection) = poured := ⟨_, rfl⟩
  have input : poured.input = connection.input ++ chunk := by rw [← isPoured]
  have sameHeader : poured.header = connection.header := by rw [← isPoured]
  have sameSink : poured.sink = connection.sink := by rw [← isPoured]
  have still : poured.broken = false := by rw [← isPoured]; exact unbroken
  rw [← sameSink] at waits
  rw [pour, if_neg (by rw [unbroken]; exact Bool.false_ne_true), isPoured, ← sameSink]
  cases pending with
  | between header bytes few =>
    rw [← List.append_assoc, ← input] at bytes
    exact readPackets_between (sameHeader.trans header) still complete waits bytes (by omega)
  | @within frame left _ header bytes few =>
    rw [← List.append_assoc, ← input] at bytes
    apply readPackets_within (sameHeader.trans header) still
      (complete frame List.mem_cons_self) waits bytes
    intro rest sink isInput later
    apply readPackets_between rfl rfl
      (fun other member => complete other (List.mem_cons_of_mem _ member)) later
    · rw [isInput, List.append_assoc] at bytes
      exact List.append_cancel_left bytes
    · rw [isInput, List.length_append]
      dsimp only
      omega

theorem readData_pending {frames : List Frame} {reads : List (List UInt8 × Bool)}
    (unbroken : connection.broken = false) (complete : ∀ frame ∈ frames, frame.Complete)
    (waits : Frame.Waits connection.sink frames)
    (pending : Pending connection frames (reads.flatMap Prod.fst ++ remaining)) :
    ∃ final, connection.readData reads = .ok final ∧
      Handed frames remaining connection.sink.flush final := by
  induction reads generalizing connection frames with
  | nil => exact ⟨connection, rfl, [], frames, rfl, unbroken, rfl, waits, pending⟩
  | cons first others ih =>
    obtain ⟨chunk, ends⟩ := first
    rw [List.flatMap_cons, List.append_assoc] at pending
    obtain ⟨poured, pours, read, left, rfl, still, isSink, waits, after⟩ :=
      pour_pending unbroken complete waits pending
    obtain ⟨next, isNext⟩ : ∃ next, (if ends then { poured with sink := poured.sink.flush }
      else poured) = next := ⟨_, rfl⟩
    have ended : next.broken = false ∧ next.sink.flush = poured.sink.flush ∧
        Frame.Waits next.sink left ∧ Pending next left (others.flatMap Prod.fst ++ remaining) := by
      cases ends with
      | false =>
        cases isNext
        exact ⟨still, rfl, waits, after⟩
      | true =>
        cases isNext
        refine ⟨still, Sink.flush_flush, ⟨waits.orderly, .inl rfl⟩, ?_⟩
        cases after with
        | between header bytes few => exact .between header bytes few
        | within header bytes few => exact .within header bytes few
    obtain ⟨still, sameFlush, waits, after⟩ := ended
    obtain ⟨final, ran, more, rest, rfl, unbroken, isFinal, pending⟩ :=
      ih still (fun frame member => complete frame (List.mem_append_right _ member)) waits after
    refine ⟨final, ?_, read ++ more, rest, (List.append_assoc ..).symm, unbroken, ?_, pending⟩
    · rw [readData, List.foldlM_cons, pours]
      change (Connection.readData (if ends then _ else poured) others) = _
      rw [isNext]
      exact ran
    · rw [isFinal, sameFlush, isSink]
      exact (List.foldl_append ..).symm

end Connection

theorem Connection.flush_of_readData {connection final : Connection}
    {reads : List (List UInt8 × Bool)} {last : List UInt8}
    (ran : connection.readData (reads ++ [(last, true)]) = .ok final) :
    final.sink.flush = final.sink := by
  rw [readData, List.foldlM_append] at ran
  obtain ⟨before, -, ran⟩ := ok_of_bind ran
  rw [List.foldlM_cons] at ran
  obtain ⟨next, ran, same⟩ := ok_of_bind ran
  obtain ⟨poured, -, ended⟩ := ok_of_bind ran
  cases same
  cases ended
  exact Sink.flush_flush

theorem Pending.finished {connection : Connection} {left : List Frame}
    (pending : Pending connection left []) :
    left = [] ∧ connection.input = [] ∧ connection.header = none := by
  cases pending with
  | between header bytes few =>
    rw [List.append_nil] at bytes
    cases left with
    | nil => exact ⟨rfl, bytes, header⟩
    | cons frame others =>
      rw [bytes, List.flatMap_cons, Frame.wire, List.length_append, List.length_append,
        frame.headerBytes_length] at few
      omega
  | within header bytes few =>
    rw [List.append_nil] at bytes
    rw [bytes, List.length_append] at few
    omega

/-- In a stream of complete frames, every frame is read from its own bytes and the next header
right behind it: after any read the frames that came in as a whole have been handed over or wait
for it in the queue, in order and each as it is on its own, and the connection waits inside the next
one. After the last call the connection is as good as new, however the stream was cut. -/
theorem frames_independent {sink : Sink} {frames : List Frame} (idle : sink.inputQueue = [])
    (complete : ∀ frame ∈ frames, frame.Complete) (orderly : Frame.Orderly sink frames)
    (reads : List (List UInt8 × Bool)) :
    (∀ remaining, reads.flatMap Prod.fst ++ remaining = frames.flatMap Frame.wire →
      ∃ final, (Connection.fresh sink).readData reads = .ok final ∧
        Handed frames remaining sink final) ∧
    ∀ last, reads.flatMap Prod.fst ++ last = frames.flatMap Frame.wire →
      (Connection.fresh sink).readData (reads ++ [(last, true)]) =
        .ok (Connection.fresh (frames.foldl (Frame.arrive .give) sink)) := by
  have flushed : sink.flush = sink := by
    obtain ⟨channels, batch, queue, delivered⟩ := sink
    cases idle
    rw [Sink.flush, List.append_nil]
  have runs : ∀ reads remaining, reads.flatMap Prod.fst ++ remaining = frames.flatMap Frame.wire →
      ∃ final, (Connection.fresh sink).readData reads = .ok final ∧
        Handed frames remaining sink final := by
    intro reads remaining stream
    have fresh : Pending (.fresh sink) frames (reads.flatMap Prod.fst ++ remaining) :=
      .between rfl stream (Nat.zero_lt_succ 15)
    have ran := Connection.readData_pending rfl complete ⟨orderly, .inl idle⟩ fresh
    rwa [Connection.fresh, flushed] at ran
  refine ⟨runs reads, ?_⟩
  intro last stream
  obtain ⟨final, ran, read, left, rfl, unbroken, isSink, -, pending⟩ :=
    runs (reads ++ [(last, true)]) [] (by
      rw [List.flatMap_append, List.flatMap_singleton, List.append_nil]
      exact stream)
  obtain ⟨rfl, input, header⟩ := pending.finished
  rw [Connection.flush_of_readData ran] at isSink
  rw [ran, List.append_nil, ← isSink]
  obtain ⟨_, _, _, _⟩ := final
  cases input
  cases header
  cases unbroken
  rfl

/-- A data server with worker threads. -/
def serverSink : Sink := ⟨none, true, [], []⟩

def getFrame : Frame where
  chid := 7
  pcode := 2112
  body := writeInt8 0 ++ (writeInt16 0 ++ (putDataEntry [65] ++ (putDataEntry [66] ++ [])))
  small := by decide

def unknownFrame : Frame where
  chid := 8
  pcode := 9999
  body := [1, 2, 3]
  small := by decide

theorem getFrame_complete : getFrame.Complete := by
  intro packetClass known
  cases known
  exact ⟨_, .long (by decide) (.item (.int8 0) (.item (.int16 0) (.item (.entry (by decide))
    (.item (.entry (by decide)) .done))))⟩

/-- A frame of an unknown code and a get of a field, cut in the middle of a header. -/
theorem frames_independent_cut :
    (Connection.fresh serverSink).readData
        [((unknownFrame.wire ++ getFrame.wire).take 30, false),
          ((unknownFrame.wire ++ getFrame.wire).drop 30, true)] =
      .ok (Connection.fresh ([unknownFrame, getFrame].foldl (Frame.arrive .give) serverSink)) := by
  have complete : ∀ frame ∈ [unknownFrame, getFrame], frame.Complete := by
    intro frame member
    rcases List.mem_cons.mp member with rfl | member
    · intro packetClass known
      cases known
    · rw [List.mem_singleton.mp member]
      exact getFrame_complete
  have orderly : Frame.Orderly serverSink [unknownFrame, getFrame] :=
    fun _ => List.pairwise_pair.mpr fun known => by cases known
  exact (frames_independent rfl complete orderly [_]).2 _ (by decide +kernel)

def shortFrame : Frame where
  chid := 7
  pcode := 2112
  body := [0, 0, 0]
  small := by decide

def pingFrame : Frame where
  chid := 8
  pcode := 6
  body := [0, 0, 0, 1, 0, 0, 0, 2]
  small := by decide

def deliveries (calls : List (List UInt8)) : Option (List Delivery × Bool) :=
  ((Connection.fresh serverSink).readData (calls.map (·, true))).toOption.map fun connection =>
    (connection.sink.delivered, connection.broken)

/-- If the two frames come one by one, the ping is handed over behind the bad packet. If they come
together, the decoder of the first takes the flag of the second for the length of a key, and the
connection breaks. A bad packet that comes together with the packet before it overtakes it. -/
theorem short_frame_breaks :
    deliveries [shortFrame.wire, pingFrame.wire] =
        some ([⟨none, none⟩, ⟨none, some (pingFrame.header,
          [(.configVersion, .int32 1), (.value, .int32 2)])⟩], false) ∧
      deliveries [shortFrame.wire ++ pingFrame.wire] = some ([⟨none, none⟩], true) ∧
      deliveries [pingFrame.wire, unknownFrame.wire] =
        some ([⟨none, some (pingFrame.header,
          [(.configVersion, .int32 1), (.value, .int32 2)])⟩, ⟨none, none⟩], false) ∧
      deliveries [pingFrame.wire ++ unknownFrame.wire] =
        some ([⟨none, none⟩, ⟨none, some (pingFrame.header,
          [(.configVersion, .int32 1), (.value, .int32 2)])⟩], false) := by
  decide +kernel

end Tair.Packets
