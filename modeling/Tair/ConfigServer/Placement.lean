/-
Where the copies of a bucket end up. The round of the masters only makes every master available.
The round of the slaves settles line after line, and a settled line differs from every other line
of its bucket, since a later one is only filled with a server that no line holds.
-/

import Tair.ConfigServer.BuilderSteps
import Tair.ConfigServer.TableBuilder1
import Tair.ConfigServer.TableBuilder2

namespace Tair.ConfigServer

open Function Std Tair.Library

variable {shape : Shape} {δ : Type}

def sampleShape : Shape := ⟨2, 2, by decide, by decide⟩

def sampleNodes : UpNodes := ⟨[1, 2, 3], by simp [invalidFlag], by simp⟩

/-- Bucket 0 is lost, bucket 1 has server 1 twice. -/
def sampleSource : HashTable sampleShape :=
  Grid.ofFn (fun _ idx => if idx.val = 0 then noNode else ⟨1, 1⟩)

structure Placed (available : ServerIdType → Bool) (row : shape.Line → ServerIdType) : Prop where
  alive : ∀ line, available (row line) = true
  distinct : ∀ line other, line ≠ other → (row line).first ≠ (row other).first

/-- What a strategy has to guarantee of a server it accepts. `Spread` is what it
demands of the whole row when it accepts a slave. -/
structure Strategy.Placing (strategy : Strategy shape δ)
    (Spread : δ → (shape.Line → ServerIdType) → Prop) : Prop where
  alive : ∀ {builder node line idx table level nodeInUse},
    strategy.isThisNodeOK builder node line idx table level nodeInUse = .nodeOK →
      builder.isNodeAvailble node = true
  apart : ∀ {builder node line idx table level nodeInUse}, line ≠ shape.master →
    strategy.isThisNodeOK builder node line idx table level nodeInUse = .nodeOK →
      ∀ other, other ≠ line → (table.get other idx).first ≠ node.first
  spread : ∀ {builder node line idx table level nodeInUse}, line ≠ shape.master →
    strategy.isThisNodeOK builder node line idx table level nodeInUse = .nodeOK →
      Spread builder.derived (Function.update (fun copy => table.get copy idx) line node)

/-- A row in the middle of the second round: `visited` are the slaves that were
already looked at. -/
structure Settled (available : ServerIdType → Bool)
    (Spread : (shape.Line → ServerIdType) → Prop) (visited : List shape.Line)
    (row : shape.Line → ServerIdType) : Prop where
  master : available (row shape.master) = true
  alive : ∀ line ∈ visited, available (row line) = true
  apart : ∀ line ∈ visited, ∀ other, other ≠ line → (row other).first ≠ (row line).first
  spread : visited ≠ [] → Spread row

namespace Settled

variable {available : ServerIdType → Bool} {Spread : (shape.Line → ServerIdType) → Prop}
  {visited : List shape.Line} {row : shape.Line → ServerIdType}

/-- Putting an acceptable server on a slave line settles that line and unsettles
none of those before. -/
theorem put (settled : Settled available Spread visited row) {line : shape.Line}
    (slave : line ≠ shape.master) {node : ServerIdType} (alive : available node = true)
    (apart : ∀ other, other ≠ line → (row other).first ≠ node.first)
    (spread : Spread (update row line node)) :
    Settled available Spread (visited ++ [line]) (update row line node) where
  master := by
    rw [update_of_ne slave.symm]
    exact settled.master
  alive := by
    intro copy member
    by_cases here : copy = line
    · rw [here, update_self]
      exact alive
    · rw [update_of_ne here]
      rcases List.mem_append.mp member with prior | last
      · exact settled.alive copy prior
      · exact absurd (List.mem_singleton.mp last) here
  apart := by
    intro copy member other ne
    by_cases here : copy = line
    · rw [here] at ne ⊢
      rw [update_self, update_of_ne ne]
      exact apart other ne
    · rcases List.mem_append.mp member with prior | last
      · rw [update_of_ne here]
        by_cases there : other = line
        · rw [there, update_self]
          exact (apart copy here).symm
        · rw [update_of_ne there]
          exact settled.apart copy prior other ne
      · exact absurd (List.mem_singleton.mp last) here
  spread := fun _ => spread

theorem placed (settled : Settled available Spread shape.slaves row) : Placed available row where
  alive := by
    intro line
    by_cases isMaster : line = shape.master
    · rw [isMaster]
      exact settled.master
    · exact settled.alive line (Shape.mem_slaves.mpr isMaster)
  distinct := by
    intro line other ne
    by_cases isMaster : line = shape.master
    · have slave : other ≠ shape.master := fun same => ne (isMaster.trans same.symm)
      exact settled.apart other (Shape.mem_slaves.mpr slave) line ne
    · exact (settled.apart line (Shape.mem_slaves.mpr isMaster) other ne.symm).symm

end Settled

/-! ### The two rounds -/

namespace Strategy.Placing

variable {strategy : Strategy shape δ} {Spread : δ → (shape.Line → ServerIdType) → Prop}

theorem search_passes {work : Work shape δ} {line : shape.Line} {idx : shape.Bucket}
    {origin node : ServerIdType} (search : work.getSuitableNode strategy line idx origin = node)
    (found : node.first ≠ invalidFlag) :
    ∃ level, strategy.isThisNodeOK work.builder node line idx work.table level false = .nodeOK := by
  rw [← search] at found
  obtain ⟨level, -, passed, -⟩ := work.getSuitableNode_sound strategy line idx origin found
  rw [search] at passed
  exact ⟨level, of_decide_eq_true passed⟩

section

variable (placing : strategy.Placing Spread)

include placing

theorem master_step {consider : Consider} {idx : shape.Bucket} {work next : Work shape δ}
    (ran : work.checkNode strategy consider idx shape.master = .ok next) :
    work.available (next.row idx shape.master) = true := by
  have step := Work.checkNode_step strategy consider idx work shape.master
  rw [ran] at step
  cases step with
  | accept good => exact placing.alive good
  | swap bad isMaster other slave alive room =>
    rw [work.master_swapMaster idx slave]
    exact alive
  | replace bad node search found =>
    obtain ⟨level, good⟩ := search_passes search found
    rw [Work.row_replace, update_self, ← Work.available_of_setup (Work.setup_invaliadNode work shape.master idx)]
    exact placing.alive good

theorem slave_step {consider : Consider} {idx : shape.Bucket} {work next : Work shape δ}
    {line : shape.Line} {visited : List shape.Line} (slave : line ≠ shape.master)
    (settled : Settled work.available (Spread work.builder.derived) visited (work.row idx))
    (ran : work.checkNode strategy consider idx line = .ok next) :
    Settled work.available (Spread work.builder.derived) (visited ++ [line]) (next.row idx) := by
  have step := Work.checkNode_step strategy consider idx work line
  rw [ran] at step
  cases step with
  | accept good =>
    have same : update (work.row idx) line (work.entry line idx) = work.row idx :=
      update_eq_self line _
    have kept := settled.put slave (placing.alive good) (placing.apart slave good)
      (placing.spread slave good)
    rw [same] at kept
    exact kept
  | swap bad isMaster other otherSlave alive room => exact absurd isMaster slave
  | replace bad node search found =>
    obtain ⟨level, good⟩ := search_passes search found
    have clean := Work.setup_invaliadNode work line idx
    have derived : (work.invaliadNode line idx).builder.derived = work.builder.derived :=
      congrArg Setup.derived clean
    have alive : work.available node = true := by
      rw [← Work.available_of_setup clean]
      exact placing.alive good
    have apart : ∀ other, other ≠ line → (work.row idx other).first ≠ node.first := by
      intro other ne
      have checked := placing.apart slave good other ne
      rw [Work.table_invaliadNode, Grid.get_set_of_line_ne _ _ _ _ ne] at checked
      exact checked
    have spread := placing.spread slave good
    rw [derived, Work.table_invaliadNode, Work.row_set, update_idem] at spread
    rw [Work.row_replace]
    exact settled.put slave alive apart spread

theorem masters_round {work mastered : Work shape δ}
    (done : work.checkRound strategy 0 = .ok mastered) :
    mastered.setup = work.setup ∧
      ∀ idx, work.available (mastered.row idx shape.master) = true := by
  refine Work.checkRound_rows work.setup (fun _ _ => True)
    (fun _ row => work.available (row shape.master) = true) ?_ rfl (fun _ => trivial) done
  intro state next idx setup _ ran
  rw [← Work.available_of_setup setup]
  exact placing.master_step (Work.mastersBucket_ok ran)

theorem slaves_round {work final : Work shape δ}
    (masters : ∀ idx, work.available (work.row idx shape.master) = true)
    (done : work.checkRound strategy 1 = .ok final) :
    final.setup = work.setup ∧
      ∀ idx, Settled work.available (Spread work.builder.derived) shape.slaves (final.row idx) := by
  refine Work.checkRound_rows work.setup
    (fun _ row => work.available (row shape.master) = true)
    (fun _ row => Settled work.available (Spread work.builder.derived) shape.slaves row)
    ?_ rfl masters done
  intro state next idx setup master stepped
  unfold Work.checkBucket at stepped
  rw [Shape.visited_one] at stepped
  -- The invariant of the inner loop carries the setup along, so that every line
  -- is judged by the same servers.
  have walked := Scan.foldlM_ok
    (fun visited (reached : Work shape δ) => reached.setup = work.setup ∧
      Settled work.available (Spread work.builder.derived) visited (reached.row idx))
    shape.slaves state
    ⟨setup, ⟨master, fun _ member => absurd member List.not_mem_nil,
      fun _ member => absurd member List.not_mem_nil, fun some => absurd rfl some⟩⟩ ?_ stepped
  · exact walked.2
  · intro before line after reached more split kept visit
    have slave : line ≠ shape.master := by
      apply Shape.mem_slaves.mp
      rw [split]
      exact List.mem_append_right before List.mem_cons_self
    have frame := Work.checkNode_frame strategy reached .all idx line
    have ran : reached.checkNode strategy .all idx line = .ok more := visit
    rw [ran] at frame
    refine ⟨frame.1.trans kept.1, ?_⟩
    have settled := kept.2
    rw [← Work.available_of_setup kept.1, ← Work.derived_of_setup kept.1] at settled ⊢
    exact placing.slave_step slave settled ran

theorem checkTable_settled {work final : Work shape δ}
    (done : work.checkTable strategy = .ok final) :
    final.setup = work.setup ∧
      ∀ idx, Settled work.available (Spread work.builder.derived) shape.slaves (final.row idx) := by
  obtain ⟨mastered, first, second⟩ := Work.checkTable_ok done
  obtain ⟨sameSetup, masters⟩ := placing.masters_round first
  have same := Work.available_of_setup sameSetup
  rw [← same] at masters
  obtain ⟨lastSetup, settled⟩ := placing.slaves_round masters second
  refine ⟨lastSetup.trans sameSetup, ?_⟩
  rw [same, Work.derived_of_setup sameSetup] at settled
  exact settled

end

end Strategy.Placing

/-! ### The strategies -/

theorem TableBuilder.listed_of_available (builder : TableBuilder δ) {serverIds : List UInt64}
    {node : ServerIdType}
    (alive : (builder.setAvailableServer serverIds).isNodeAvailble node = true) :
    ∃ id ∈ serverIds, id ≠ 0 ∧ node = nodeOf builder.posMask id := by
  obtain ⟨real, member⟩ := TableBuilder.isNodeAvailble_iff.mp alive
  obtain ⟨id, listed, same⟩ := (mem_setAvailableServer builder serverIds node).mp member
  have first : node.first = id := (congrArg ServerIdType.first same).symm
  exact ⟨id, listed, fun zero => real (first.trans zero), same.symm⟩

namespace TableBuilder1

theorem placing (shape : Shape) : (strategy shape).Placing (fun _ _ => True) where
  alive good := (TableBuilder.nodeStatus_nodeOK.mp good).1
  apart slave good other ne := by
    rcases (TableBuilder.nodeStatus_nodeOK.mp good).2.2 with easy | row
    · exact absurd easy.1 slave
    · exact (rowStatus_nodeOK.mp row other ne).1
  spread _ _ := trivial

/-- Whatever the source was, a table that was built has all copies of a bucket
on different available servers. -/
theorem rebuildTable_placed (builder : TableBuilder Limits) (serverIds : List UInt64)
    (source : HashTable shape)
    (built : ((builder.setAvailableServer serverIds).rebuildTable (strategy shape) source
      true).code = .buildOK) :
    let result := ((builder.setAvailableServer serverIds).rebuildTable (strategy shape) source
      true).work.table
    (∀ line idx, ∃ serverId ∈ serverIds, serverId ≠ 0 ∧
        result.get line idx = nodeOf builder.posMask serverId) ∧
      ∀ idx line other, line ≠ other →
        (result.get line idx).first ≠ (result.get other idx).first := by
  intro result
  obtain ⟨-, finished⟩ := TableBuilder.rebuildTable_buildOK built
  obtain ⟨-, settled⟩ := (placing shape).checkTable_settled finished
  exact ⟨fun line idx => TableBuilder.listed_of_available builder ((settled idx).placed.alive line),
    fun idx => (settled idx).placed.distinct⟩

theorem rebuildTable_placed_sample :
    let rebuilt := ((TableBuilder.construct 0 unsetLimits).setAvailableServer
      sampleNodes.serverIds).rebuildTable (strategy sampleShape) sampleSource true
    rebuilt.code = .buildOK ∧ ∀ idx line other, line ≠ other →
      (rebuilt.work.table.get line idx).first ≠ (rebuilt.work.table.get other idx).first :=
  ⟨by decide +kernel, (rebuildTable_placed (TableBuilder.construct 0 unsetLimits)
    sampleNodes.serverIds sampleSource (by decide +kernel)).2⟩

end TableBuilder1

namespace TableBuilder2

def Spread (rooms : Rooms) (row : shape.Line → ServerIdType) : Prop :=
  rooms.buildStatNormal = true → ∃ line other, (row line).second ≠ (row other).second

private theorem posLimit_size_of_one (position : UInt32) (others : List shape.Line)
    (row : shape.Line → ServerIdType) (single : ∀ line ∈ others, (row line).second = position)
    (limit : TreeSet UInt32) (inside : position ∈ limit) (one : limit.size = 1) :
    (others.foldl (fun limit other => limit.insert (row other).second) limit).size = 1 := by
  induction others generalizing limit with
  | nil => exact one
  | cons head rest ih =>
    have here : (row head).second = position := single head List.mem_cons_self
    refine ih (fun line member => single line (List.mem_cons_of_mem _ member)) _ ?_ ?_
    · exact TreeSet.mem_insert.mpr (Or.inr inside)
    · change (limit.insert (row head).second).size = 1
      rw [here, TreeSet.size_insert, if_pos (TreeSet.mem_iff_contains.mp inside)]
      exact one

theorem exists_two_positions {table : HashTable shape} {node : ServerIdType} {line : shape.Line}
    {idx : shape.Bucket} (two : ¬(posLimit table node line idx).size < 2) :
    ∃ left right, (update (fun copy => table.get copy idx) line node left).second ≠
      (update (fun copy => table.get copy idx) line node right).second := by
  by_contra none
  push Not at none
  have single : ∀ other ∈ shape.others line, (table.get other idx).second = node.second := by
    intro other member
    have ne := Shape.mem_others.mp member
    have same := none other line
    rw [update_self, update_of_ne ne] at same
    exact same
  have size := posLimit_size_of_one node.second (shape.others line)
    (fun copy => table.get copy idx) single ((∅ : TreeSet UInt32).insert node.second)
    (TreeSet.mem_insert.mpr (Or.inl compare_self)) (by simp [TreeSet.size_insert])
  apply two
  unfold posLimit
  rw [size]
  decide

theorem rowStatus_nodeOK {rooms : Rooms} {table : HashTable shape} {node : ServerIdType}
    {line : shape.Line} {idx : shape.Bucket}
    (good : rowStatus rooms table node line idx = .nodeOK) :
    (∀ other, other ≠ line → (table.get other idx).first ≠ node.first) ∧
      ¬(rooms.buildStatNormal = true ∧ line ≠ shape.master ∧
        (posLimit table node line idx).size < 2) := by
  unfold rowStatus at good
  split_ifs at good with clash crowded
  refine ⟨fun other ne same => clash ?_, crowded⟩
  exact List.any_eq_true.mpr ⟨other, Shape.mem_others.mpr ne, decide_eq_true same⟩

theorem placing (shape : Shape) : (strategy shape).Placing Spread where
  alive good := (TableBuilder.nodeStatus_nodeOK.mp good).1
  apart slave good other ne := by
    rcases (TableBuilder.nodeStatus_nodeOK.mp good).2.2 with easy | row
    · exact absurd easy.1 slave
    · exact (rowStatus_nodeOK row).1 other ne
  spread slave good := by
    rcases (TableBuilder.nodeStatus_nodeOK.mp good).2.2 with easy | row
    · exact absurd easy.1 slave
    · intro normal
      exact exists_two_positions (fun crowded => (rowStatus_nodeOK row).2 ⟨normal, slave, crowded⟩)

/-- The second strategy moreover puts every bucket on two positions. That the
statistics are normal and that there are two copies follows from its returning a
table at all. -/
theorem rebuildTable_spread (builder : TableBuilder Rooms) (serverIds : List UInt64)
    (source dest : HashTable shape) (rebuilt : TableBuilder.Rebuilt shape Rooms)
    (returned : rebuildTable (setAvailableServer shape builder serverIds) source dest true =
      some rebuilt) (built : rebuilt.code = .buildOK) :
    (∀ line idx, ∃ serverId ∈ serverIds, serverId ≠ 0 ∧
        rebuilt.work.table.get line idx = nodeOf builder.posMask serverId) ∧
      (∀ idx line other, line ≠ other →
        (rebuilt.work.table.get line idx).first ≠ (rebuilt.work.table.get other idx).first) ∧
      ∀ idx, ∃ line other,
        ((rebuilt.work.table.get line idx).first &&& builder.posMask).toUInt32 ≠
          ((rebuilt.work.table.get other idx).first &&& builder.posMask).toUInt32 := by
  unfold rebuildTable at returned
  split_ifs at returned with abnormal single
  · cases returned
    cases built
  have normal := (Bool.not_eq_false _).mp abnormal
  have copies := Nat.not_le.mp single
  cases returned
  obtain ⟨-, finished⟩ := TableBuilder.rebuildTable_buildOK built
  obtain ⟨-, settled⟩ := (placing shape).checkTable_settled finished
  have listed : ∀ idx line, ∃ serverId ∈ serverIds, serverId ≠ 0 ∧ _ := fun idx line =>
    TableBuilder.listed_of_available builder ((settled idx).placed.alive line)
  refine ⟨fun line idx => listed idx line, fun idx => (settled idx).placed.distinct, fun idx => ?_⟩
  have someSlave : shape.slaves ≠ [] := by
    refine List.ne_nil_of_mem (a := ⟨1, copies⟩) (Shape.mem_slaves.mpr ?_)
    exact fun same => absurd (congrArg Fin.val same) Nat.one_ne_zero
  obtain ⟨line, other, different⟩ := (settled idx).spread someSlave normal
  obtain ⟨lineId, -, -, lineNode⟩ := listed idx line
  obtain ⟨otherId, -, -, otherNode⟩ := listed idx other
  refine ⟨line, other, ?_⟩
  -- An available entry carries the position of its own address.
  rw [lineNode, otherNode] at different
  change _ = nodeOf builder.posMask lineId at lineNode
  change _ = nodeOf builder.posMask otherId at otherNode
  unfold Work.row at lineNode otherNode
  rw [lineNode, otherNode]
  exact different

def sampleRooms : TableBuilder Rooms :=
  (TableBuilder.construct 0 ⟨false, .finite 0, 0, 0, 0, 0, 0, 0⟩).setPosMask 1

theorem rebuildTable_spread_sample :
    ∃ rebuilt, rebuildTable (setAvailableServer sampleShape sampleRooms [1, 2, 3, 4])
        sampleSource sampleSource true = some rebuilt ∧ rebuilt.code = .buildOK ∧
      ∀ idx, ∃ line other,
        ((rebuilt.work.table.get line idx).first &&& 1).toUInt32 ≠
          ((rebuilt.work.table.get other idx).first &&& 1).toUInt32 :=
  ⟨_, rfl, by decide +kernel,
    (rebuildTable_spread sampleRooms [1, 2, 3, 4] sampleSource sampleSource _ rfl
      (by decide +kernel)).2.2⟩

end TableBuilder2

end Tair.ConfigServer
