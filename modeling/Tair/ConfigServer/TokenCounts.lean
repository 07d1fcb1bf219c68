/-
The counters of the builder are exact. For every available server the ledgers hold the number of
its entries in the working table and on line 0, and each of the four indexes has it on the one
shelf that its count names.
-/

import Tair.ConfigServer.BuilderSteps
import Tair.Library.Tally

namespace Tair.ConfigServer

open Std Tair.Library
open Tair.Library.ShelfIndex (Shelved shelf)

variable {shape : Shape} {δ : Type}

/-! ### Entries of a table -/

variable (table : HashTable shape)

def copies (node : ServerIdType) : Nat :=
  tally (fun cell : shape.Line × shape.Bucket => table.get cell.1 cell.2) node

def masters (node : ServerIdType) : Nat :=
  tally (fun idx => table.get shape.master idx) node

theorem copies_set (line : shape.Line) (idx : shape.Bucket) (wrote node : ServerIdType) :
    (copies (table.set line idx wrote) node : Int) =
      copies table node - (if table.get line idx = node then 1 else 0) +
        (if wrote = node then 1 else 0) := by
  have cells : (fun cell : shape.Line × shape.Bucket => (table.set line idx wrote).get cell.1 cell.2) =
      Function.update (fun cell => table.get cell.1 cell.2) (line, idx) wrote := by
    funext cell
    rw [Grid.get_set, Function.update_apply]
    simp only [Prod.ext_iff]
  unfold copies
  rw [cells, Tally.tally_update]

theorem masters_set_master (idx : shape.Bucket) (wrote node : ServerIdType) :
    (masters (table.set shape.master idx wrote) node : Int) =
      masters table node - (if table.get shape.master idx = node then 1 else 0) +
        (if wrote = node then 1 else 0) := by
  have cells : (fun bucket => (table.set shape.master idx wrote).get shape.master bucket) =
      Function.update (fun bucket => table.get shape.master bucket) idx wrote := by
    funext bucket
    rw [Grid.get_set, Function.update_apply]
    simp only [true_and]
  unfold masters
  rw [cells, Tally.tally_update]

theorem masters_set_slave {line : shape.Line} (slave : line ≠ shape.master) (idx : shape.Bucket)
    (wrote node : ServerIdType) : masters (table.set line idx wrote) node = masters table node := by
  unfold masters
  congr 1
  funext bucket
  exact Grid.get_set_of_line_ne _ _ _ _ slave.symm

theorem masters_swapMaster (work : Work shape δ) (idx : shape.Bucket) {line : shape.Line}
    (slave : line ≠ shape.master) (node : ServerIdType) :
    (masters (work.swapMaster idx line).table node : Int) =
      masters work.table node - (if work.entry shape.master idx = node then 1 else 0) +
        (if work.entry line idx = node then 1 else 0) := by
  rw [Work.table_swapMaster, masters_set_slave _ slave, masters_set_master]
  rfl

/-! ### The turns of the loops -/

/-- The entries in the order in which `rebuild_table` checks them. -/
def Shape.turns (shape : Shape) : List (Nat × shape.Bucket × shape.Line) :=
  (List.range (min 2 shape.copyCount)).flatMap fun lineNumOut => shape.buckets.flatMap fun idx =>
    (shape.visited lineNumOut).map fun line => (lineNumOut, idx, line)

def Work.turn (strategy : Strategy shape δ) (work : Work shape δ)
    (place : Nat × shape.Bucket × shape.Line) : Except (Work shape δ) (Work shape δ) :=
  work.checkNode strategy (if place.1 = 0 then .base else .all) place.2.1 place.2.2

theorem Work.checkTable_turns (strategy : Strategy shape δ) (work : Work shape δ) :
    work.checkTable strategy = shape.turns.foldlM (turn strategy) work := by
  simp only [Shape.turns, Scan.foldlM_flatMap, List.foldlM_map]
  rfl

/-! ### One ledger -/

namespace TokenLedger

theorem count_change (ledger : TokenLedger) (node other : ServerIdType) (minus : Bool) :
    (ledger.changeTokensCountInNode node minus).count other =
      if other = node then (if minus then ledger.count node - 1 else ledger.count node + 1)
      else ledger.count other := by
  unfold changeTokensCountInNode count
  rw [TreeMap.getD_insert]
  by_cases same : node = other
  · rw [if_pos (LawfulEqCmp.compare_eq_iff_eq.mpr same), if_pos same.symm]
  · rw [if_neg (fun equal => same (LawfulEqCmp.compare_eq_iff_eq.mp equal)),
      if_neg (fun equal => same equal.symm)]

end TokenLedger

/-- A ledger that holds `held` for every available server and nothing for any
other, with both indexes in step. -/
structure Tracks (ledger : TokenLedger) (servers : ServerList) (held : ServerIdType → Int) :
    Prop where
  counts : ∀ node ∈ servers, ledger.count node = held node
  outside : ∀ node, node ∉ servers → ledger.count node = 0
  shelved : Shelved ledger.countServer (· ∈ servers) ledger.count
  candidates :
    Shelved ledger.candidateNode (· ∈ servers) (fun node => ledger.count node - ledger.capable node)

namespace Tracks

variable {ledger : TokenLedger} {servers : ServerList} {held held' : ServerIdType → Int}

theorem change (tracks : Tracks ledger servers held) {node : ServerIdType} (member : node ∈ servers)
    {minus : Bool} (here : held' node = if minus then held node - 1 else held node + 1)
    (others : ∀ other ∈ servers, other ≠ node → held' other = held other) :
    Tracks (ledger.changeTokensCountInNode node minus) servers held' := by
  have moved : (ledger.changeTokensCountInNode node minus).count node =
      if minus then ledger.count node - 1 else ledger.count node + 1 := by
    rw [TokenLedger.count_change, if_pos rfl]
  have kept : ∀ other, other ≠ node →
      (ledger.changeTokensCountInNode node minus).count other = ledger.count other := by
    intro other ne
    rw [TokenLedger.count_change, if_neg ne]
  refine ⟨fun other inside => ?_, fun other absent => ?_, ?_, ?_⟩
  · by_cases same : other = node
    · rw [same, moved, here, tracks.counts node member]
    · rw [kept other same, others other inside same, tracks.counts other inside]
  · rw [kept other (fun same => absent (same ▸ member)), tracks.outside other absent]
  · have placed := tracks.shelved.move ((ledger.changeTokensCountInNode node minus).count)
      member kept
    rw [moved] at placed
    exact placed
  · have placed := tracks.candidates.move
      (fun other => (ledger.changeTokensCountInNode node minus).count other -
        ledger.capable other) member (fun other ne => by rw [kept other ne])
    rw [moved] at placed
    exact placed

theorem congr (tracks : Tracks ledger servers held)
    (same : ∀ node ∈ servers, held' node = held node) : Tracks ledger servers held' :=
  ⟨fun node member => (tracks.counts node member).trans (same node member).symm,
    tracks.outside, tracks.shelved, tracks.candidates⟩

end Tracks

/-! ### Both ledgers against the working table -/

structure Counted (work : Work shape δ) : Prop where
  real : ∀ node ∈ work.builder.availableServer, node.first ≠ invalidFlag
  tokens : Tracks work.builder.tokens work.builder.availableServer
    (fun node => copies work.table node)
  mtokens : Tracks work.builder.mtokens work.builder.availableServer
    (fun node => masters work.table node)

namespace Counted

variable {work : Work shape δ}

theorem available_iff (counted : Counted work) {node : ServerIdType} :
    work.available node = true ↔ node ∈ work.builder.availableServer := by
  unfold Work.available
  rw [TableBuilder.isNodeAvailble_iff]
  exact ⟨fun both => both.2, fun member => ⟨counted.real node member, member⟩⟩

theorem accountNode (counted : Counted work) (strategy : Strategy shape δ) (node : ServerIdType) :
    Counted (work.accountNode strategy node) :=
  { counted with }

theorem hole_ne (counted : Counted work) {node : ServerIdType}
    (member : node ∈ work.builder.availableServer) (position : UInt32) :
    (⟨invalidFlag, position⟩ : ServerIdType) ≠ node :=
  fun same => counted.real node member (congrArg ServerIdType.first same).symm

/-- Another table in which one server has one entry more or less, and the
counters changed likewise. -/
theorem recount (counted : Counted work) {table : HashTable shape} {line : shape.Line}
    {node : ServerIdType} {minus : Bool} (member : node ∈ work.builder.availableServer)
    (copiesAfter : ∀ other ∈ work.builder.availableServer, (copies table other : Int) =
      copies work.table other + if node = other then (if minus then -1 else 1) else 0)
    (mastersAfter : ∀ other ∈ work.builder.availableServer, (masters table other : Int) =
      masters work.table other +
        if line = shape.master ∧ node = other then (if minus then -1 else 1) else 0) :
    Counted { work.changeTokens line node minus with table := table } := by
  have signed : ∀ count : Int, (if minus then count - 1 else count + 1) =
      count + if minus then -1 else 1 := by
    intro count
    cases minus with
    | false => rfl
    | true => rfl
  refine ⟨counted.real, ?_, ?_⟩
  · refine counted.tokens.change member ?_ (fun other inside ne => ?_)
    · rw [copiesAfter node member, if_pos rfl, signed]
    · rw [copiesAfter other inside, if_neg (Ne.symm ne), Int.add_zero]
  · change Tracks (if line = shape.master then _ else _) _ _
    by_cases isMaster : line = shape.master
    · rw [if_pos isMaster]
      refine counted.mtokens.change member ?_ (fun other inside ne => ?_)
      · rw [mastersAfter node member, if_pos ⟨isMaster, rfl⟩, signed]
      · rw [mastersAfter other inside, if_neg (fun both => ne both.2.symm), Int.add_zero]
    · rw [if_neg isMaster]
      refine counted.mtokens.congr (fun other inside => ?_)
      rw [mastersAfter other inside, if_neg (fun both => isMaster both.1), Int.add_zero]

private theorem masters_set (table : HashTable shape) (line : shape.Line) (idx : shape.Bucket)
    (wrote node : ServerIdType) :
    (masters (table.set line idx wrote) node : Int) =
      masters table node - (if line = shape.master ∧ table.get line idx = node then 1 else 0) +
        (if line = shape.master ∧ wrote = node then 1 else 0) := by
  by_cases isMaster : line = shape.master
  · subst isMaster
    simp only [true_and]
    exact masters_set_master table idx wrote node
  · simp [masters_set_slave table isMaster, isMaster]

section

variable (counted : Counted work)

include counted

theorem invaliadNode (line : shape.Line) (idx : shape.Bucket) :
    Counted (work.invaliadNode line idx) := by
  have hole : ∀ node ∈ work.builder.availableServer,
      (⟨invalidFlag, (work.entry line idx).second⟩ : ServerIdType) ≠ node :=
    fun node member => counted.hole_ne member _
  have old : work.table.get line idx = work.entry line idx := rfl
  have copiesAfter := fun node (member : node ∈ work.builder.availableServer) => by
    have wrote := copies_set work.table line idx
      ⟨invalidFlag, (work.entry line idx).second⟩ node
    rw [old, if_neg (hole node member), Int.add_zero] at wrote
    exact wrote
  have mastersAfter := fun node (member : node ∈ work.builder.availableServer) => by
    have wrote := masters_set work.table line idx
      ⟨invalidFlag, (work.entry line idx).second⟩ node
    rw [old, if_neg (c := _ ∧ _ = node) (fun both => hole node member both.2), Int.add_zero]
      at wrote
    exact wrote
  unfold Work.invaliadNode
  by_cases alive : work.available (work.entry line idx) = true
  · simp only [if_pos alive]
    refine counted.recount (counted.available_iff.mp alive) (fun other inside => ?_)
      (fun other inside => ?_)
    · rw [copiesAfter other inside, if_pos rfl]
      split_ifs <;> omega
    · rw [mastersAfter other inside, if_pos rfl]
      split_ifs <;> omega
  · simp only [if_neg alive]
    have absent : ∀ node ∈ work.builder.availableServer, work.entry line idx ≠ node :=
      fun node member same => alive (counted.available_iff.mpr (same ▸ member))
    refine ⟨counted.real, counted.tokens.congr (fun node inside => congrArg Int.ofNat ?_),
      counted.mtokens.congr (fun node inside => congrArg Int.ofNat ?_)⟩
    · have wrote := copiesAfter node inside
      rw [if_neg (absent node inside)] at wrote
      dsimp only
      omega
    · have wrote := mastersAfter node inside
      rw [if_neg (fun both => absent node inside both.2)] at wrote
      dsimp only
      omega

theorem updateNode {line : shape.Line} {idx : shape.Bucket}
    (vacant : work.entry line idx ∉ work.builder.availableServer) {node : ServerIdType}
    (member : node ∈ work.builder.availableServer) : Counted (work.updateNode line idx node) := by
  have absent : ∀ other ∈ work.builder.availableServer, work.table.get line idx ≠ other := by
    intro other inside same
    rw [← same] at inside
    exact vacant inside
  unfold Work.updateNode
  simp only [if_pos (counted.available_iff.mpr member)]
  refine counted.recount member (fun other inside => ?_) (fun other inside => ?_)
  · rw [copies_set, if_neg (absent other inside), Int.sub_zero]
    rfl
  · rw [masters_set, if_neg (fun both => absent other inside both.2), Int.sub_zero]
    rfl

theorem vacant_invaliadNode (line : shape.Line) (idx : shape.Bucket) :
    (work.invaliadNode line idx).entry line idx ∉
      (work.invaliadNode line idx).builder.availableServer := by
  intro member
  have clean : ((work.invaliadNode line idx).entry line idx).first = invalidFlag := by
    unfold Work.entry
    rw [Work.table_invaliadNode, Grid.get_set_self]
  exact (counted.invaliadNode line idx).real _ member clean

/-- Swapping moves entries within a bucket. No server gains or loses a copy, and
only the two masters change their master count. -/
theorem swapMaster (idx : shape.Bucket) {line : shape.Line} (slave : line ≠ shape.master)
    (alive : work.available (work.entry line idx) = true) : Counted (work.swapMaster idx line) := by
  have member := counted.available_iff.mp alive
  have servers : (work.swapMaster idx line).builder.availableServer =
      work.builder.availableServer := rfl
  have second : ∀ wrote, (work.table.set shape.master idx wrote).get line idx =
      work.entry line idx := fun wrote => Grid.get_set_of_line_ne _ _ _ _ slave
  have promoted : Tracks (work.builder.mtokens.changeTokensCountInNode (work.entry line idx) false)
      work.builder.availableServer
      (fun node => masters work.table node + if work.entry line idx = node then 1 else 0) := by
    refine counted.mtokens.change member ?_ (fun other _ ne => ?_)
    · rw [if_pos rfl]
      rfl
    · rw [if_neg (Ne.symm ne), Int.add_zero]
  have mastersAfter := masters_swapMaster work idx slave
  have copiesAfter : ∀ node, (copies (work.swapMaster idx line).table node : Int) =
      copies work.table node - (if work.entry shape.master idx = node then 1 else 0) +
        (if (if work.available (work.entry shape.master idx) = true then
          work.entry shape.master idx else ⟨invalidFlag, (work.entry line idx).second⟩) = node
          then 1 else 0) := by
    intro node
    rw [Work.table_swapMaster, copies_set, copies_set, second]
    change _ - (if work.entry shape.master idx = node then (1 : Int) else 0) + _ - _ + _ = _
    omega
  by_cases back : work.available (work.entry shape.master idx) = true
  · have mtokens : (work.swapMaster idx line).builder.mtokens =
        (work.builder.mtokens.changeTokensCountInNode (work.entry line idx)
          false).changeTokensCountInNode (work.entry shape.master idx) true := by
      simp only [Work.swapMaster, if_pos back]
    refine ⟨counted.real, counted.tokens.congr (fun node _ => ?_), ?_⟩
    · rw [copiesAfter, if_pos back]
      omega
    · rw [mtokens, servers]
      refine promoted.change (counted.available_iff.mp back) ?_ (fun other _ ne => ?_)
      · rw [mastersAfter, if_pos rfl, if_pos rfl]
        omega
      · rw [mastersAfter, if_neg (Ne.symm ne), Int.sub_zero]
  · have absent : ∀ node ∈ work.builder.availableServer, work.entry shape.master idx ≠ node :=
      fun node inside same => back (counted.available_iff.mpr (same ▸ inside))
    have mtokens : (work.swapMaster idx line).builder.mtokens =
        work.builder.mtokens.changeTokensCountInNode (work.entry line idx) false := by
      simp only [Work.swapMaster, if_neg back]
    refine ⟨counted.real, counted.tokens.congr (fun node inside => ?_), ?_⟩
    · rw [copiesAfter, if_neg back, if_neg (absent node inside), if_neg (counted.hole_ne inside _)]
      omega
    · rw [mtokens, servers]
      refine promoted.congr (fun node inside => ?_)
      rw [mastersAfter, if_neg (absent node inside), Int.sub_zero]

theorem ledgerOf (line : shape.Line) :
    ∃ held, Tracks (work.ledgerOf line) work.builder.availableServer held := by
  unfold Work.ledgerOf
  by_cases isMaster : line = shape.master
  · rw [if_pos isMaster]
    exact ⟨_, counted.mtokens⟩
  · rw [if_neg isMaster]
    exact ⟨_, counted.tokens⟩

theorem found_available {strategy : Strategy shape δ} {line : shape.Line} {idx : shape.Bucket}
    {origin node : ServerIdType} (search : work.getSuitableNode strategy line idx origin = node)
    (found : node.first ≠ invalidFlag) : node ∈ work.builder.availableServer := by
  rw [← search] at found
  obtain ⟨-, place, -, stands⟩ := work.getSuitableNode_sound strategy line idx origin found
  rw [search] at stands
  obtain ⟨held, tracks⟩ := counted.ledgerOf line
  exact ((tracks.candidates node place).mp stands).1

theorem checkNode (strategy : Strategy shape δ) (consider : Consider) (idx : shape.Bucket)
    (line : shape.Line) : Counted (Scan.reached (work.checkNode strategy consider idx line)) := by
  have step := Work.checkNode_step strategy consider idx work line
  generalize work.checkNode strategy consider idx line = result at step ⊢
  cases step with
  | accept good => exact counted.accountNode strategy _
  | swap bad isMaster other slave alive room => exact counted.swapMaster idx slave alive
  | replace bad node search found =>
    have clean := counted.invaliadNode line idx
    exact (clean.updateNode (counted.vacant_invaliadNode line idx)
      (clean.found_available search found)).accountNode strategy node
  | giveUp bad search => exact counted.invaliadNode line idx

theorem turns (strategy : Strategy shape δ) (places : List (Nat × shape.Bucket × shape.Line)) :
    Counted (Scan.reached (places.foldlM (Work.turn strategy) work)) :=
  Scan.foldlM_keeps Counted _ (fun _ place _ kept => kept.checkNode strategy _ place.2.1 place.2.2)
    work counted

theorem checkTable (strategy : Strategy shape δ) :
    Counted (Scan.reached (work.checkTable strategy)) := by
  rw [Work.checkTable_turns]
  exact counted.turns strategy _

end

end Counted

/-! ### Counting the source -/

structure Holds (collector : TokenCount) (servers : ServerList) (held : ServerIdType → Int) :
    Prop where
  keys : ∀ node, node ∈ collector ↔ node ∈ servers
  counts : ∀ node ∈ servers, collector.getD node 0 = held node

theorem holds_initTokenCount (builder : TableBuilder δ) :
    Holds builder.initTokenCount builder.availableServer (fun _ => 0) := by
  suffices every : ∀ (nodes : List ServerIdType) (sink : TokenCount),
      (∀ node, sink.getD node 0 = 0) → ∀ node,
        (node ∈ nodes.foldl (fun sink node => sink.insert node 0) sink ↔
          node ∈ nodes ∨ node ∈ sink) ∧
        (nodes.foldl (fun sink node => sink.insert node 0) sink).getD node 0 = 0 by
    have start := every builder.availableServer.toList ∅ (fun node => TreeMap.getD_emptyc)
    refine ⟨fun node => ?_, fun node _ => (start node).2⟩
    refine (start node).1.trans ?_
    rw [TreeSet.mem_toList]
    simp
  intro nodes
  induction nodes with
  | nil => exact fun sink zeros node => ⟨by simp, zeros node⟩
  | cons head rest ih =>
    intro sink zeros node
    have inserted : ∀ other, (sink.insert head 0).getD other 0 = 0 := by
      intro other
      rw [TreeMap.getD_insert]
      split_ifs
      · rfl
      · exact zeros other
    obtain ⟨keys, zero⟩ := ih (sink.insert head 0) inserted node
    refine ⟨keys.trans ?_, zero⟩
    rw [TreeMap.mem_insert, LawfulEqCmp.compare_eq_iff_eq, List.mem_cons, eq_comm (a := head)]
    tauto

namespace Holds

variable {sink : TokenCount} {servers : ServerList} {held : ServerIdType → Int}

theorem updateNodeCount (holds : Holds sink servers held) (node : ServerIdType) :
    Holds (updateNodeCount sink node) servers
      (fun other => held other + if node = other then 1 else 0) := by
  unfold ConfigServer.updateNodeCount
  split_ifs with known
  · have member : node ∈ sink := known
    refine ⟨fun other => ?_, fun other inside => ?_⟩
    · rw [TreeMap.mem_insert, LawfulEqCmp.compare_eq_iff_eq, ← holds.keys other]
      constructor
      · rintro (same | inside)
        · rw [← same]
          exact member
        · exact inside
      · exact Or.inr
    · rw [TreeMap.getD_insert]
      simp only [LawfulEqCmp.compare_eq_iff_eq]
      split_ifs with same
      · rw [same, holds.counts other inside]
      · rw [holds.counts other inside, Int.add_zero]
  · have absent : node ∉ servers := fun member => known ((holds.keys node).mpr member)
    refine ⟨holds.keys, fun other inside => ?_⟩
    have ne : node ≠ other := fun same => absent (same ▸ inside)
    rw [if_neg ne, holds.counts other inside, Int.add_zero]

theorem foldl_updateNodeCount {ι : Type} (value : ι → ServerIdType) (items : List ι)
    (holds : Holds sink servers held) :
    Holds (items.foldl (fun sink item => ConfigServer.updateNodeCount sink (value item))
        sink) servers
      (fun node => held node + (items.map (fun item => if value item = node then (1 : Int) else 0)).sum) := by
  induction items generalizing sink held with
  | nil => exact ⟨holds.keys, fun node inside => by simpa using holds.counts node inside⟩
  | cons head rest ih =>
    have counted := ih (holds.updateNodeCount (value head))
    refine ⟨counted.keys, fun node inside => ?_⟩
    rw [List.foldl_cons, counted.counts node inside, List.map_cons, List.sum_cons, Int.add_assoc]

theorem countLine (holds : Holds sink servers held) (table : HashTable shape) (line : shape.Line) :
    Holds (TableBuilder.countLine table line sink) servers
      (fun node => held node + ∑ idx, if table.get line idx = node then (1 : Int) else 0) := by
  have counted := holds.foldl_updateNodeCount (fun idx => table.get line idx) shape.buckets
  refine ⟨counted.keys, fun node inside => ?_⟩
  rw [Fin.sum_univ_def]
  exact counted.counts node inside

theorem countTable (holds : Holds sink servers held) (table : HashTable shape) :
    Holds (TableBuilder.countTable table sink) servers
      (fun node => held node + ∑ line, ∑ idx, if table.get line idx = node then (1 : Int) else 0) := by
  suffices every : ∀ (lines : List shape.Line) {sink : TokenCount} {held : ServerIdType → Int},
      Holds sink servers held →
      Holds (lines.foldl (fun sink line => TableBuilder.countLine table line sink)
          sink) servers
        (fun node => held node +
          (lines.map (fun line => ∑ idx, if table.get line idx = node then (1 : Int) else 0)).sum) by
    have counted := every shape.lines holds
    refine ⟨counted.keys, fun node inside => ?_⟩
    rw [Fin.sum_univ_def]
    exact counted.counts node inside
  intro lines
  induction lines with
  | nil =>
    intro sink held start
    exact ⟨start.keys, fun node inside => by simpa using start.counts node inside⟩
  | cons head rest ih =>
    intro sink held start
    have counted := ih (start.countLine table head)
    refine ⟨counted.keys, fun node inside => ?_⟩
    rw [List.foldl_cons, counted.counts node inside, List.map_cons, List.sum_cons, Int.add_assoc]

theorem shelved_buildIndex (holds : Holds sink servers held) :
    Shelved (buildIndex sink) (· ∈ servers) (fun node => sink.getD node 0) := by
  intro node place
  unfold buildIndex
  rw [ShelfIndex.mem_shelf_foldl_put (fun entry : ServerIdType × Int => entry.2) Prod.fst]
  constructor
  · rintro (wrong | ⟨⟨server, count⟩, member, rfl, rfl⟩)
    · exact absurd wrong (ShelfIndex.not_mem_shelf_empty node place)
    · have stored := TreeMap.mem_toList_iff_getElem?_eq_some.mp member
      refine ⟨(holds.keys server).mp ?_, ?_⟩
      · rw [TreeMap.mem_iff_isSome_getElem?, stored]
        rfl
      · change sink.getD server 0 = count
        rw [TreeMap.getD_eq_getD_getElem?, stored]
        rfl
  · rintro ⟨inside, rfl⟩
    refine Or.inr ⟨(node, sink.getD node 0), ?_, rfl, rfl⟩
    rw [TreeMap.mem_toList_iff_getElem?_eq_some]
    have known : node ∈ sink := (holds.keys node).mpr inside
    rw [TreeMap.getD_eq_getD_getElem?]
    cases stored : sink[node]? with
    | none =>
      rw [TreeMap.mem_iff_isSome_getElem?, stored] at known
      cases known
    | some count => rfl

end Holds

/-- Sorting the servers of the count index once more, by count minus quota. -/
theorem shelved_initCandidate {countServer : ShelfIndex ServerIdType} {servers : ServerList}
    {count : ServerIdType → Int} (capable : TokenCount)
    (shelved : Shelved countServer (· ∈ servers) count) :
    Shelved (initCandidate capable countServer) (· ∈ servers)
      (fun node => count node - capable.getD node 0) := by
  intro node place
  have flat : initCandidate capable countServer =
      (countServer.toList.flatMap (fun entry => entry.2.toList.map (fun node => (entry.1, node)))).foldl
        (fun candidates item =>
          ShelfIndex.put candidates (item.1 - capable.getD item.2 0) item.2) ∅ := by
    unfold initCandidate
    rw [List.foldl_flatMap]
    simp only [List.foldl_map]
  rw [flat, ShelfIndex.mem_shelf_foldl_put
    (fun item : Int × ServerIdType => item.1 - capable.getD item.2 0) Prod.snd]
  simp only [List.mem_flatMap, List.mem_map]
  constructor
  · rintro (wrong | ⟨⟨key, server⟩, ⟨⟨shelfKey, standing⟩, met, ⟨other, inside, same⟩⟩, atPlace, rfl⟩)
    · exact absurd wrong (ShelfIndex.not_mem_shelf_empty node place)
    · cases same
      have stands : server ∈ shelf countServer shelfKey := by
        rw [ShelfIndex.shelf_of_mem_toList met]
        exact TreeSet.mem_toList.mp inside
      obtain ⟨member, counted⟩ := (shelved server shelfKey).mp stands
      refine ⟨member, ?_⟩
      rw [counted]
      exact atPlace
  · rintro ⟨member, atPlace⟩
    have stands : node ∈ shelf countServer (count node) := (shelved node _).mpr ⟨member, rfl⟩
    exact Or.inr ⟨(count node, node),
      ⟨_, ShelfIndex.mem_toList_of_mem_shelf stands, node, TreeSet.mem_toList.mpr stands, rfl⟩,
      atPlace, rfl⟩

theorem tracks_of_holds {sink : TokenCount} {servers : ServerList} {held : ServerIdType → Int}
    (holds : Holds sink servers held) (capable : TokenCount) :
    Tracks ⟨sink, buildIndex sink, initCandidate capable (buildIndex sink), capable⟩
      servers held :=
  ⟨holds.counts,
    fun node absent => TreeMap.getD_eq_fallback (fun known => absent ((holds.keys node).mp known)),
    holds.shelved_buildIndex, shelved_initCandidate capable holds.shelved_buildIndex⟩

theorem counted_prepare (strategy : Strategy shape δ) (builder : TableBuilder δ)
    (real : ∀ node ∈ builder.availableServer, node.first ≠ invalidFlag) (source : HashTable shape) :
    Counted (⟨builder.prepare strategy source, source⟩ : Work shape δ) where
  real := real
  tokens := by
    refine (tracks_of_holds ((holds_initTokenCount builder).countTable source) _).congr
      (fun node _ => ?_)
    rw [copies, Tally.tally_eq_sum, Fintype.sum_prod_type, Int.zero_add]
    push_cast
    rfl
  mtokens := by
    refine (tracks_of_holds ((holds_initTokenCount builder).countLine source shape.master) _).congr
      (fun node _ => ?_)
    rw [masters, Tally.tally_eq_sum, Int.zero_add]
    push_cast
    rfl

end Tair.ConfigServer
