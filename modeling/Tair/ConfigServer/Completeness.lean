/-
The first strategy gives up only when there are fewer servers than copies. For a master some
server is below its quota, as the entry just cleared is missing from the masters counted; for a
slave the last level asks for nothing but a server that the bucket does not use.
-/

import Tair.ConfigServer.MasterBalance

namespace Tair.ConfigServer

open Std Tair.Library

variable {shape : Shape}

namespace Counted

variable {δ : Type} {work : Work shape δ}

theorem stands (counted : Counted work) (line : shape.Line) {node : ServerIdType}
    (member : node ∈ work.builder.availableServer) :
    ∃ place, node ∈ ShelfIndex.shelf (work.ledgerOf line).candidateNode place := by
  obtain ⟨held, tracks⟩ := counted.ledgerOf line
  exact ⟨_, (tracks.candidates node _).mpr ⟨member, rfl⟩⟩

theorem exists_below_quota (counted : Counted work)
    (total : ∑ node ∈ ServerList.finset work.builder.availableServer,
      work.builder.mtokens.capable node = shape.bucketCount)
    {idx : shape.Bucket} (vacant : work.entry shape.master idx ∉ work.builder.availableServer) :
    ∃ node ∈ work.builder.availableServer,
      work.builder.mtokens.count node < work.builder.mtokens.capable node := by
  by_contra none
  push Not at none
  have outside : work.table.get shape.master idx ∉
      ServerList.finset work.builder.availableServer :=
    fun inside => vacant (ServerList.mem_finset.mp inside)
  have fewer := Tally.sum_tally_lt (fun idx => work.table.get shape.master idx) outside
  have reached : ∑ node ∈ ServerList.finset work.builder.availableServer,
      work.builder.mtokens.capable node ≤
        ∑ node ∈ ServerList.finset work.builder.availableServer,
          (masters work.table node : Int) := by
    refine Finset.sum_le_sum (fun node inside => ?_)
    have member := ServerList.mem_finset.mp inside
    rw [← counted.mtokens.counts node member]
    exact none node member
  rw [total] at reached
  rw [Fintype.card_fin] at fewer
  have cast : ∑ node ∈ ServerList.finset work.builder.availableServer,
      (masters work.table node : Int) < shape.bucketCount := by exact_mod_cast fewer
  omega

end Counted

theorem exists_unused {servers : ServerList} (row : shape.Line → ServerIdType) (line : shape.Line)
    (enough : shape.copyCount ≤ servers.size)
    (single : ∀ node ∈ servers, ∀ other ∈ servers, node.first = other.first → node = other) :
    ∃ node ∈ servers, ∀ other, other ≠ line → (row other).first ≠ node.first := by
  have addresses : ((ServerList.finset servers).image ServerIdType.first).card = servers.size := by
    rw [Finset.card_image_of_injOn, ServerList.card_finset]
    intro node member other otherMember same
    exact single node (ServerList.mem_finset.mp member) other
      (ServerList.mem_finset.mp otherMember) same
  have others : ((Finset.univ.erase line).image (fun other => (row other).first)).card <
      ((ServerList.finset servers).image ServerIdType.first).card := by
    have bound := Finset.card_image_le (s := Finset.univ.erase line)
      (f := fun other => (row other).first)
    rw [Finset.card_erase_of_mem (Finset.mem_univ line), Finset.card_univ, Fintype.card_fin] at bound
    have pos := shape.copyPositive
    omega
  obtain ⟨address, inside, outside⟩ := Finset.exists_mem_notMem_of_card_lt_card others
  obtain ⟨node, member, rfl⟩ := Finset.mem_image.mp inside
  refine ⟨node, ServerList.mem_finset.mp member, fun other ne same => outside ?_⟩
  exact Finset.mem_image.mpr
    ⟨other, Finset.mem_erase.mpr ⟨ne, Finset.mem_univ other⟩, same⟩

namespace TableBuilder1

structure Supplied (work : Work shape Limits) : Prop where
  counted : Counted work
  enough : shape.copyCount ≤ work.builder.availableServer.size
  single : ∀ node ∈ work.builder.availableServer, ∀ other ∈ work.builder.availableServer,
    node.first = other.first → node = other
  total : ∑ node ∈ ServerList.finset work.builder.availableServer,
    work.builder.mtokens.capable node = shape.bucketCount

namespace Supplied

variable {work : Work shape Limits}

section

variable (supplied : Supplied work)

include supplied

theorem of_setup {next : Work shape Limits} (counted : Counted next)
    (setup : next.setup = work.setup) : Supplied next := by
  have servers : next.builder.availableServer = work.builder.availableServer :=
    congrArg Setup.availableServer setup
  have quotas : ∀ node, next.builder.mtokens.capable node = work.builder.mtokens.capable node :=
    fun node => congrArg (fun setup : Setup Limits => setup.masterServerCapable.getD node 0) setup
  refine ⟨counted, ?_, ?_, ?_⟩
  · rw [servers]
    exact supplied.enough
  · rw [servers]
    exact supplied.single
  · rw [servers, ← supplied.total]
    exact Finset.sum_congr rfl (fun node _ => quotas node)

/-- The search for a master: at `base` only the quota counts. -/
theorem finds_master {idx : shape.Bucket} (origin : ServerIdType)
    (vacant : work.entry shape.master idx ∉ work.builder.availableServer) :
    (work.getSuitableNode (strategy shape) shape.master idx origin).first ≠ invalidFlag := by
  obtain ⟨node, member, below⟩ := supplied.counted.exists_below_quota supplied.total vacant
  obtain ⟨place, stands⟩ := supplied.counted.stands shape.master member
  refine work.getSuitableNode_complete (strategy shape) shape.master idx origin
    (fun level server passed => ?_) (Nat.le_refl Consider.base.rank) stands (decide_eq_true ?_)
  · exact (TableBuilder.isNodeAvailble_iff.mp
      ((placing shape).alive (of_decide_eq_true passed))).1
  · refine TableBuilder.nodeStatus_nodeOK.mpr ⟨?_, ?_, Or.inl ⟨rfl, rfl⟩⟩
    · exact supplied.counted.available_iff.mpr member
    · rw [TableBuilder.tokenStatus_master]
      simpa using below

/-- The search for a slave: at `force` only the other copies count. -/
theorem finds_slave {line : shape.Line} (slave : line ≠ shape.master) (idx : shape.Bucket)
    (origin : ServerIdType) :
    (work.getSuitableNode (strategy shape) line idx origin).first ≠ invalidFlag := by
  obtain ⟨node, member, unused⟩ := exists_unused (work.row idx) line supplied.enough supplied.single
  obtain ⟨place, stands⟩ := supplied.counted.stands line member
  have relaxed : Consider.base.rank ≤ Consider.force.rank := by decide
  refine work.getSuitableNode_complete (strategy shape) line idx origin
    (fun level server passed => ?_) relaxed stands (decide_eq_true ?_)
  · exact (TableBuilder.isNodeAvailble_iff.mp
      ((placing shape).alive (of_decide_eq_true passed))).1
  · refine TableBuilder.nodeStatus_nodeOK.mpr ⟨?_, ?_, Or.inr ?_⟩
    · exact supplied.counted.available_iff.mpr member
    · exact TableBuilder.tokenStatus_force _ _ slave _ _ _
    · refine rowStatus_nodeOK.mpr (fun other ne => ⟨unused other ne, ?_⟩)
      exact fun strict => absurd strict (by decide)

theorem checkNode_total (consider : Consider) (idx : shape.Bucket) (line : shape.Line) :
    ∃ next, work.checkNode (strategy shape) consider idx line = .ok next ∧ Supplied next := by
  have counted := supplied.counted.checkNode (strategy shape) consider idx line
  have frame := Work.checkNode_frame (strategy shape) work consider idx line
  have step := Work.checkNode_step (strategy shape) consider idx work line
  cases result : work.checkNode (strategy shape) consider idx line with
  | ok next =>
    rw [result] at counted frame
    exact ⟨next, rfl, supplied.of_setup counted frame.1⟩
  | error ended =>
    -- A visit only fails with an empty search on the clean entry.
    rw [result] at step
    cases step with
    | giveUp bad search =>
      have clean := supplied.of_setup (supplied.counted.invaliadNode line idx)
        (work.setup_invaliadNode line idx)
      by_cases isMaster : line = shape.master
      · subst isMaster
        exact absurd search (clean.finds_master _
          (supplied.counted.vacant_invaliadNode shape.master idx))
      · exact absurd search (clean.finds_slave isMaster idx _)

theorem checkRound_total (lineNumOut : Nat) :
    ∃ next, work.checkRound (strategy shape) lineNumOut = .ok next ∧ Supplied next := by
  refine Scan.foldlM_total (fun _ => Supplied) shape.buckets work supplied ?_
  intro before idx after state split kept
  exact Scan.foldlM_total (fun _ => Supplied) (shape.visited lineNumOut) state kept
    (fun _ line _ reached _ held => held.checkNode_total _ idx line)

theorem checkTable_total : ∃ final, work.checkTable (strategy shape) = .ok final := by
  obtain ⟨final, done, -⟩ := Scan.foldlM_total (fun _ => Supplied)
    (List.range (min 2 shape.copyCount)) work supplied
    (fun _ lineNumOut _ state _ kept => kept.checkRound_total lineNumOut)
  exact ⟨final, done⟩

end

end Supplied

theorem supplied_prepare (builder : TableBuilder Limits) (up : UpNodes) (source : HashTable shape)
    (enough : shape.copyCount ≤ (builder.setAvailableServer up.serverIds).availableServer.size) :
    Supplied (⟨(builder.setAvailableServer up.serverIds).prepare (strategy shape) source, source⟩ :
      Work shape Limits) where
  counted := counted_prepare (strategy shape) _
    (fun _ member => builder.real_setAvailableServer up member) source
  enough := enough
  single := by
    intro node member other otherMember same
    obtain ⟨nodeId, -, rfl⟩ := (builder.mem_setAvailableServer up.serverIds node).mp member
    obtain ⟨otherId, -, rfl⟩ := (builder.mem_setAvailableServer up.serverIds other).mp otherMember
    exact congrArg (nodeOf builder.posMask) same
  total := sum_masterCapable _ source (Nat.lt_of_lt_of_le shape.copyPositive enough)

/-- A build succeeds exactly when there are as many servers as copies. -/
theorem rebuildTable_complete (builder : TableBuilder Limits) (up : UpNodes)
    (source : HashTable shape) :
    ((builder.setAvailableServer up.serverIds).rebuildTable (strategy shape) source true).code =
        .buildOK ↔
      shape.copyCount ≤ (builder.setAvailableServer up.serverIds).availableServer.size := by
  refine ⟨fun built => (TableBuilder.rebuildTable_buildOK built).1, fun enough => ?_⟩
  obtain ⟨final, finished⟩ := (supplied_prepare builder up source enough).checkTable_total
  unfold TableBuilder.rebuildTable
  have noQuick : ¬((builder.setAvailableServer up.serverIds).needBuildQuickTable source = true ∧
      true = false) := fun both => absurd both.2 (by decide)
  simp only [if_neg noQuick, if_neg (Nat.not_lt.mpr enough), finished, TableBuilder.Rebuilt.ofPass]

end TableBuilder1

end Tair.ConfigServer
