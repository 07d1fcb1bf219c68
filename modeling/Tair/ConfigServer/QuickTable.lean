/-
The quick table serves the data that is left. A bucket whose master is gone gets a slave for its
master, and every other dead entry is cleared. The counters of the builder, filled or not, only
decide between slaves, as long as none is negative.
-/

import Tair.ConfigServer.Placement
import Tair.ConfigServer.TokenCounts

namespace Tair.ConfigServer

open Function Std Tair.Library

variable {shape : Shape} {δ : Type}

structure Kept (available : ServerIdType → Bool) (source result : shape.Line → ServerIdType) :
    Prop where
  masterAlive : available (result shape.master) = true
  masterHeld : ∃ line, source line = result shape.master
  masterKept : available (source shape.master) = true → result shape.master = source shape.master
  slaves : ∀ line, line ≠ shape.master → result line = noNode ∨
    (available (result line) = true ∧ ∃ other, source other = result line)
  copies : ∀ node, available node = true → tally result node = tally source node

/-! ### The choice of a new master -/

namespace Work

variable {work : Work shape δ}

/-- A line that was chosen may be exchanged for a better one, not given back. -/
private theorem considerLines_chosen (work : Work shape δ) (idx : shape.Bucket)
    (nonneg : ∀ node, 0 ≤ work.builder.mtokens.count node) (lines : List shape.Line)
    (line : shape.Line) {count : Int} (pos : 0 ≤ count) :
    ∃ other least, lines.foldl (work.considerLine idx) (some line, count) = (some other, least) ∧
      0 ≤ least := by
  induction lines generalizing line count with
  | nil => exact ⟨line, count, rfl, pos⟩
  | cons head rest ih =>
    rw [List.foldl_cons]
    unfold considerLine
    split_ifs with alive better
    · exact ih head (nonneg _)
    · exact ih line pos
    · exact ih line pos

private theorem considerLines_cases (work : Work shape δ) (idx : shape.Bucket)
    (nonneg : ∀ node, 0 ≤ work.builder.mtokens.count node) (lines : List shape.Line) :
    (lines.foldl (work.considerLine idx) (none, -1) = (none, -1) ∧
        ∀ line ∈ lines, work.available (work.entry line idx) = false) ∨
      ∃ line count, lines.foldl (work.considerLine idx) (none, -1) = (some line, count) ∧
        0 ≤ count := by
  induction lines with
  | nil => exact Or.inl ⟨rfl, fun _ member => absurd member List.not_mem_nil⟩
  | cons head rest ih =>
    rw [List.foldl_cons]
    by_cases alive : work.available (work.entry head idx) = true
    · have taken : work.considerLine idx (none, -1) head =
          (some head, work.builder.mtokens.count (work.entry head idx)) := by
        unfold considerLine
        rw [if_pos alive, if_pos (Or.inl rfl)]
      rw [taken]
      exact Or.inr (considerLines_chosen work idx nonneg rest head (nonneg _))
    · have skipped : work.considerLine idx (none, -1) head = (none, -1) := by
        unfold considerLine
        rw [if_neg alive]
      rw [skipped]
      rcases ih with ⟨unset, none⟩ | result
      · refine Or.inl ⟨unset, fun line member => ?_⟩
        rcases List.mem_cons.mp member with same | later
        · rw [same]
          exact Bool.eq_false_iff.mpr alive
        · exact none line later
      · exact Or.inr result

theorem changeMasterNode_force (work : Work shape δ) (idx : shape.Bucket)
    (nonneg : ∀ node, 0 ≤ work.builder.mtokens.count node) :
    (work.changeMasterNode idx true = none ∧
        ∀ line, line ≠ shape.master → work.available (work.entry line idx) = false) ∨
      ∃ line, line ≠ shape.master ∧ work.available (work.entry line idx) = true ∧
        work.changeMasterNode idx true = some (work.swapMaster idx line) := by
  unfold changeMasterNode
  rcases considerLines_cases work idx nonneg shape.slaves with
    ⟨unset, none⟩ | ⟨line, count, chosen, pos⟩
  · change work.chooseLine idx = _ at unset
    rw [unset]
    exact Or.inl ⟨rfl, fun line slave => none line (Shape.mem_slaves.mpr slave)⟩
  · change work.chooseLine idx = _ at chosen
    have isChosen : (work.chooseLine idx).1 = some line := by rw [chosen]
    obtain ⟨slave, alive⟩ := work.chooseLine_slave idx isChosen
    rw [chosen]
    refine Or.inr ⟨line, slave, alive, ?_⟩
    have set : ¬count = -1 := by omega
    simp [set]

theorem quickMaster_cases (work : Work shape δ) (idx : shape.Bucket)
    (nonneg : ∀ node, 0 ≤ work.builder.mtokens.count node) :
    (work.available (work.entry shape.master idx) = true ∧ work.quickMaster idx = .ok work) ∨
      (work.available (work.entry shape.master idx) = false ∧
        ∃ line, line ≠ shape.master ∧ work.available (work.entry line idx) = true ∧
          work.quickMaster idx = .ok (work.swapMaster idx line)) ∨
      ((∀ line, work.available (work.entry line idx) = false) ∧
        work.quickMaster idx = .error work) := by
  unfold quickMaster
  by_cases alive : work.available (work.entry shape.master idx) = true
  · rw [if_pos alive]
    exact Or.inl ⟨alive, rfl⟩
  · rw [if_neg alive]
    have dead := Bool.eq_false_iff.mpr alive
    rcases changeMasterNode_force work idx nonneg with ⟨fails, none⟩ | ⟨line, slave, good, swaps⟩
    · rw [fails]
      refine Or.inr (Or.inr ⟨fun line => ?_, rfl⟩)
      by_cases isMaster : line = shape.master
      · rw [isMaster]
        exact dead
      · exact none line isMaster
    · rw [swaps]
      exact Or.inr (Or.inl ⟨dead, line, slave, good, rfl⟩)

/-- With a dead master only the new master's counter changes, and it grows. -/
theorem nonneg_swapMaster (nonneg : ∀ node, 0 ≤ work.builder.mtokens.count node)
    (idx : shape.Bucket) (line : shape.Line)
    (dead : work.available (work.entry shape.master idx) = false) (node : ServerIdType) :
    0 ≤ (work.swapMaster idx line).builder.mtokens.count node := by
  have alone : (work.swapMaster idx line).builder.mtokens =
      work.builder.mtokens.changeTokensCountInNode (work.entry line idx) false := by
    simp [swapMaster, dead]
  have old := nonneg node
  have grown := nonneg (work.entry line idx)
  rw [alone, TokenLedger.count_change]
  simp only [Bool.false_eq_true, if_false]
  split_ifs <;> omega

end Work

/-! ### One row -/

/-- A row after the loop over the masters. -/
inductive Promoted (available : ServerIdType → Bool) (source : shape.Line → ServerIdType) :
    (shape.Line → ServerIdType) → Prop
  | stays (alive : available (source shape.master) = true) : Promoted available source source
  | swaps (dead : available (source shape.master) = false) (line : shape.Line)
      (slave : line ≠ shape.master) (alive : available (source line) = true) :
      Promoted available source
        (Function.update (Function.update source shape.master (source line)) line
          ⟨invalidFlag, (source line).second⟩)

/-- A row after the loop over the slaves. -/
def swept (available : ServerIdType → Bool) (row : shape.Line → ServerIdType) :
    shape.Line → ServerIdType :=
  fun line => if line ≠ shape.master ∧ available (row line) = false then noNode else row line

theorem tally_swept {available : ServerIdType → Bool} (row : shape.Line → ServerIdType)
    {node : ServerIdType} (alive : available node = true)
    (unset : ∀ position, available ⟨invalidFlag, position⟩ = false) :
    tally (swept available row) node = tally row node := by
  unfold tally
  congr 1
  refine Finset.filter_congr (fun line _ => ?_)
  unfold swept
  split_ifs with clean
  · constructor
    · intro same
      rw [← same] at alive
      exact absurd (alive.symm.trans (unset 0)) (by decide)
    · intro same
      rw [same] at clean
      exact absurd (alive.symm.trans clean.2) (by decide)
  · exact Iff.rfl

theorem tally_promoted {available : ServerIdType → Bool} {source row : shape.Line → ServerIdType}
    (promoted : Promoted available source row) {node : ServerIdType} (alive : available node = true)
    (unset : ∀ position, available ⟨invalidFlag, position⟩ = false) :
    tally row node = tally source node := by
  have ne : ∀ {other}, available other = false → other ≠ node :=
    fun dead same => absurd (alive.symm.trans (same ▸ dead)) (by decide)
  cases promoted with
  | stays => rfl
  | swaps dead line slave good =>
    have second := Tally.tally_update (update source shape.master (source line)) line
      ⟨invalidFlag, (source line).second⟩ node
    have first := Tally.tally_update source shape.master (source line) node
    rw [update_of_ne slave, if_neg (ne (unset _))] at second
    rw [if_neg (ne dead)] at first
    omega

theorem kept_of_promoted {available : ServerIdType → Bool}
    {source row : shape.Line → ServerIdType} (promoted : Promoted available source row)
    (unset : ∀ position, available ⟨invalidFlag, position⟩ = false) :
    Kept available source (swept available row) := by
  have top : swept available row shape.master = row shape.master :=
    if_neg (fun both => both.1 rfl)
  have copies : ∀ node, available node = true →
      tally (swept available row) node = tally source node :=
    fun node alive => (tally_swept row alive unset).trans (tally_promoted promoted alive unset)
  cases promoted with
  | stays alive =>
    refine ⟨?_, ⟨shape.master, top.symm⟩, fun _ => top, fun line slave => ?_, copies⟩
    · rw [top]
      exact alive
    · unfold swept
      split_ifs with clean
      · exact Or.inl rfl
      · exact Or.inr ⟨Bool.not_eq_false _ ▸ fun dead => clean ⟨slave, dead⟩, line, rfl⟩
  | swaps dead line slave alive =>
    have newMaster : swept available (update (update source shape.master
        (source line)) line ⟨invalidFlag, (source line).second⟩) shape.master = source line := by
      rw [top, update_of_ne slave.symm, update_self]
    refine ⟨?_, ⟨line, newMaster.symm⟩, fun wasAlive => ?_, fun other otherSlave => ?_, copies⟩
    · rw [newMaster]
      exact alive
    · exact absurd (wasAlive.symm.trans dead) (by decide)
    · by_cases here : other = line
      · refine Or.inl (if_pos ⟨otherSlave, ?_⟩)
        rw [here, update_self]
        exact unset _
      · have same : update (update source shape.master (source line)) line
            ⟨invalidFlag, (source line).second⟩ other = source other := by
          rw [update_of_ne here, update_of_ne otherSlave]
        unfold swept
        split_ifs with clean
        · exact Or.inl rfl
        · exact Or.inr ⟨Bool.not_eq_false _ ▸ fun gone => clean ⟨otherSlave, gone⟩,
            other, same.symm⟩

/-! ### The two loops -/

namespace Work

private theorem get_sweepLine (builder : TableBuilder δ) (line : shape.Line)
    (buckets : List shape.Bucket) (table : HashTable shape) (copy : shape.Line)
    (idx : shape.Bucket) :
    (buckets.foldl (sweepNode builder line) table).get copy idx =
      if copy = line ∧ idx ∈ buckets ∧ builder.isNodeAvailble (table.get copy idx) = false then noNode
      else table.get copy idx := by
  induction buckets generalizing table with
  | nil => simp
  | cons head rest ih =>
    rw [List.foldl_cons, ih]
    unfold sweepNode
    by_cases here : copy = line ∧ idx = head
    · obtain ⟨rfl, rfl⟩ := here
      by_cases alive : builder.isNodeAvailble (table.get copy idx) = true
      · simp [alive]
      · simp [alive, noNode]
    · by_cases alive : builder.isNodeAvailble (table.get line head) = true
      · rw [if_pos alive]
        refine if_congr ⟨fun both => ⟨both.1, List.mem_cons_of_mem _ both.2.1, both.2.2⟩,
          fun both => ⟨both.1, ?_, both.2.2⟩⟩ rfl rfl
        rcases List.mem_cons.mp both.2.1 with same | later
        · exact absurd ⟨both.1, same⟩ here
        · exact later
      · rw [if_neg alive, Grid.get_set, if_neg here]
        refine if_congr ⟨fun both => ⟨both.1, List.mem_cons_of_mem _ both.2.1, both.2.2⟩,
          fun both => ⟨both.1, ?_, both.2.2⟩⟩ rfl rfl
        rcases List.mem_cons.mp both.2.1 with same | later
        · exact absurd ⟨both.1, same⟩ here
        · exact later

theorem row_sweepSlaves (work : Work shape δ) (idx : shape.Bucket) :
    work.sweepSlaves.row idx = swept work.available (work.row idx) := by
  suffices every : ∀ (lines : List shape.Line) (table : HashTable shape) (line : shape.Line),
      (lines.foldl (fun table line => shape.buckets.foldl (sweepNode work.builder line) table)
          table).get line idx =
        if line ∈ lines ∧ work.builder.isNodeAvailble (table.get line idx) = false then noNode
        else table.get line idx by
    funext line
    unfold row sweepSlaves swept
    rw [every]
    exact if_congr (and_congr_left' Shape.mem_slaves) rfl rfl
  intro lines
  induction lines with
  | nil => simp
  | cons head rest ih =>
    intro table line
    rw [List.foldl_cons, ih, get_sweepLine]
    by_cases dead : work.builder.isNodeAvailble (table.get line idx) = false
    · have unset : work.builder.isNodeAvailble noNode = false := rfl
      by_cases same : line = head
      · simp [same, Shape.mem_buckets, unset, same ▸ dead]
      · simp [same, dead]
    · simp [dead]

/-- A state of the loop over the masters. -/
structure Quick (builder : TableBuilder δ) (source : HashTable shape)
    (visited : List shape.Bucket) (state : Work shape δ) : Prop where
  servers : state.builder.availableServer = builder.availableServer
  nonneg : ∀ node, 0 ≤ state.builder.mtokens.count node
  promoted : ∀ idx ∈ visited,
    Promoted builder.isNodeAvailble (fun line => source.get line idx) (state.row idx)
  untouched : ∀ idx, idx ∉ visited → state.row idx = fun line => source.get line idx

theorem Quick.available {builder : TableBuilder δ} {source : HashTable shape}
    {visited : List shape.Bucket} {state : Work shape δ} (quick : Quick builder source visited state) :
    state.available = builder.isNodeAvailble := by
  funext node
  unfold Work.available TableBuilder.isNodeAvailble
  rw [quick.servers]

/-- A visit that leaves the other buckets alone and promotes this one. -/
theorem Quick.visit {builder : TableBuilder δ} {source : HashTable shape}
    {visited : List shape.Bucket} {state next : Work shape δ}
    (quick : Quick builder source visited state) {idx : shape.Bucket}
    (servers : next.builder.availableServer = state.builder.availableServer)
    (nonneg : ∀ node, 0 ≤ next.builder.mtokens.count node)
    (others : ∀ other, other ≠ idx → next.row other = state.row other)
    (here : Promoted builder.isNodeAvailble (fun line => source.get line idx) (next.row idx)) :
    Quick builder source (visited ++ [idx]) next where
  servers := servers.trans quick.servers
  nonneg := nonneg
  promoted := by
    intro bucket member
    by_cases same : bucket = idx
    · rw [same]
      exact here
    · rw [others bucket same]
      rcases List.mem_append.mp member with prior | last
      · exact quick.promoted bucket prior
      · exact absurd (List.mem_singleton.mp last) same
  untouched := by
    intro bucket absent
    have ne : bucket ≠ idx :=
      fun same => absent (List.mem_append_right visited (List.mem_singleton.mpr same))
    rw [others bucket ne]
    exact quick.untouched bucket (fun prior => absent (List.mem_append_left _ prior))

theorem Quick.step {builder : TableBuilder δ} {source : HashTable shape}
    {visited : List shape.Bucket} {state next : Work shape δ}
    (quick : Quick builder source visited state) {idx : shape.Bucket} (fresh : idx ∉ visited)
    (ran : state.quickMaster idx = .ok next) : Quick builder source (visited ++ [idx]) next := by
  have untouched := quick.untouched idx fresh
  have alike : ∀ line, state.available (state.entry line idx) =
      builder.isNodeAvailble (source.get line idx) := by
    intro line
    rw [quick.available]
    exact congrArg builder.isNodeAvailble (congrFun untouched line)
  rcases quickMaster_cases state idx quick.nonneg with
    ⟨alive, ok⟩ | ⟨dead, line, slave, alive, ok⟩ | ⟨-, failed⟩
  · rw [ran] at ok
    cases ok
    refine quick.visit rfl quick.nonneg (fun _ _ => rfl) ?_
    rw [untouched]
    exact .stays ((alike shape.master).symm.trans alive)
  · rw [ran] at ok
    cases ok
    have swapped : (state.swapMaster idx line).row idx =
        update (update (state.row idx) shape.master (state.row idx line)) line
          ⟨invalidFlag, (state.row idx line).second⟩ := by
      unfold row
      rw [table_swapMaster, row_set, row_set, if_neg (by rw [dead]; decide)]
      rfl
    refine quick.visit rfl (nonneg_swapMaster quick.nonneg idx line dead)
      (fun other here => (row_set_other here _).trans (row_set_other here _)) ?_
    rw [swapped, untouched]
    exact .swaps ((alike shape.master).symm.trans dead) line slave
      ((alike line).symm.trans alive)
  · rw [ran] at failed
    cases failed

/-- The loop over the masters stops at a bucket that nobody holds, or else gives
every bucket an available master. -/
theorem quickMasters_cases (builder : TableBuilder δ) (source : HashTable shape)
    (nonneg : ∀ node, 0 ≤ builder.mtokens.count node) :
    (∃ mastered : Work shape δ, shape.buckets.foldlM quickMaster ⟨builder, source⟩ = .ok mastered ∧
        Quick builder source shape.buckets mastered) ∨
      ∃ (ended : Work shape δ) (idx : shape.Bucket),
        shape.buckets.foldlM quickMaster ⟨builder, source⟩ = .error ended ∧
        ∀ line, builder.isNodeAvailble (source.get line idx) = false := by
  have initial : Quick builder source [] (⟨builder, source⟩ : Work shape δ) :=
    ⟨rfl, nonneg, fun _ member => absurd member List.not_mem_nil, fun _ _ => rfl⟩
  rcases Scan.foldlM_cases (Quick builder source) shape.buckets ⟨builder, source⟩ initial
      (fun _ _ _ _ _ split quick ran => quick.step (fresh_of_split split) ran) with
    done | ⟨before, idx, after, state, failure, split, quick, failed, ended⟩
  · exact Or.inl done
  · refine Or.inr ⟨failure, idx, ended, fun line => ?_⟩
    have untouched := quick.untouched idx (fresh_of_split split)
    rcases quickMaster_cases state idx quick.nonneg with ⟨-, ok⟩ | ⟨-, other, -, -, ok⟩ | ⟨lost, -⟩
    · rw [failed] at ok
      cases ok
    · rw [failed] at ok
      cases ok
    · rw [← quick.available, ← congrFun untouched line]
      exact lost line

theorem buildQuickTable_cases (builder : TableBuilder δ) (source : HashTable shape)
    (nonneg : ∀ node, 0 ≤ builder.mtokens.count node) :
    (∃ result, buildQuickTable ⟨builder, source⟩ = .ok result ∧
        result.builder.availableServer = builder.availableServer ∧
        ∀ idx, ∃ row, Promoted builder.isNodeAvailble (fun line => source.get line idx) row ∧
          result.row idx = swept builder.isNodeAvailble row) ∨
      ((∃ ended, buildQuickTable ⟨builder, source⟩ = .error ended) ∧
        ∃ idx, ∀ line, builder.isNodeAvailble (source.get line idx) = false) := by
  unfold buildQuickTable
  rcases quickMasters_cases builder source nonneg with
    ⟨mastered, done, quick⟩ | ⟨ended, idx, failed, lost⟩
  · rw [done]
    refine Or.inl ⟨mastered.sweepSlaves, rfl, quick.servers, fun idx => ?_⟩
    refine ⟨mastered.row idx, quick.promoted idx (Shape.mem_buckets idx), ?_⟩
    rw [row_sweepSlaves, quick.available]
  · rw [failed]
    exact Or.inr ⟨⟨ended, rfl⟩, idx, lost⟩

end Work

/-! ### Builders in use -/

/-- The builders a program can get hold of. A strategy may set its own members at
any time. -/
inductive Built (strategy : Strategy shape δ) : TableBuilder δ → Prop
  | construct (maxCountNow : Int) (derived : δ) :
      Built strategy (.construct maxCountNow derived)
  | setDerived {builder : TableBuilder δ} (built : Built strategy builder) (derived : δ) :
      Built strategy { builder with derived := derived }
  | setPosMask {builder : TableBuilder δ} (built : Built strategy builder) (posMask : UInt64) :
      Built strategy (builder.setPosMask posMask)
  | setAvailableServer {builder : TableBuilder δ} (built : Built strategy builder) (up : UpNodes) :
      Built strategy (builder.setAvailableServer up.serverIds)
  | buildQuickTable {builder : TableBuilder δ} (built : Built strategy builder)
      (table : HashTable shape) :
      Built strategy (Scan.reached (Work.buildQuickTable ⟨builder, table⟩)).builder
  | rebuildTable {builder : TableBuilder δ} (built : Built strategy builder)
      (source : HashTable shape) (noQuickTable : Bool) :
      Built strategy (builder.rebuildTable strategy source noQuickTable).work.builder

structure Sane (builder : TableBuilder δ) : Prop where
  real : ∀ node ∈ builder.availableServer, node.first ≠ invalidFlag
  nonneg : ∀ node, 0 ≤ builder.mtokens.count node

theorem Counted.sane {work : Work shape δ} (counted : Counted work) : Sane work.builder where
  real := counted.real
  nonneg := by
    intro node
    by_cases member : node ∈ work.builder.availableServer
    · rw [counted.mtokens.counts node member]
      exact Int.natCast_nonneg _
    · rw [counted.mtokens.outside node member]

namespace Sane

variable {builder : TableBuilder δ}

theorem buildQuickTable (sane : Sane builder) (table : HashTable shape) :
    Sane (Scan.reached (Work.buildQuickTable ⟨builder, table⟩)).builder := by
  have walked : Sane (Scan.reached
      (shape.buckets.foldlM Work.quickMaster (⟨builder, table⟩ : Work shape δ))).builder := by
    refine Scan.foldlM_keeps (fun state : Work shape δ => Sane state.builder) _ ?_ _ sane
    intro state idx _ kept
    rcases Work.quickMaster_cases state idx kept.nonneg with
      ⟨-, ok⟩ | ⟨dead, line, -, -, ok⟩ | ⟨-, failed⟩
    · rw [ok]
      exact kept
    · rw [ok]
      exact ⟨kept.real, Work.nonneg_swapMaster kept.nonneg idx line dead⟩
    · rw [failed]
      exact kept
  unfold Work.buildQuickTable
  cases pass : shape.buckets.foldlM Work.quickMaster (⟨builder, table⟩ : Work shape δ) with
  | ok mastered =>
    rw [pass] at walked
    exact ⟨walked.real, walked.nonneg⟩
  | error ended =>
    rw [pass] at walked
    exact walked

theorem rebuildTable (sane : Sane builder) (strategy : Strategy shape δ) (source : HashTable shape)
    (noQuickTable : Bool) :
    Sane (builder.rebuildTable strategy source noQuickTable).work.builder := by
  have counted := counted_prepare strategy builder sane.real source
  unfold TableBuilder.rebuildTable
  dsimp only
  split_ifs with quick few
  · rw [TableBuilder.Rebuilt.ofPass_work]
    exact counted.sane.buildQuickTable source
  · exact counted.sane
  · rw [TableBuilder.Rebuilt.ofPass_work]
    exact (counted.checkTable strategy).sane

theorem of_built {strategy : Strategy shape δ} (built : Built strategy builder) : Sane builder := by
  induction built with
  | construct limit derived =>
    refine ⟨fun node member => absurd member TreeSet.not_mem_emptyc, fun node => ?_⟩
    exact Int.le_of_eq TreeMap.getD_emptyc.symm
  | setDerived built derived ih => exact ⟨ih.real, ih.nonneg⟩
  | setPosMask built posMask ih => exact ⟨ih.real, ih.nonneg⟩
  | @setAvailableServer before built up ih =>
    exact ⟨fun _ member => before.real_setAvailableServer up member, ih.nonneg⟩
  | buildQuickTable built table ih => exact ih.buildQuickTable table
  | rebuildTable built source noQuickTable ih => exact ih.rebuildTable strategy source noQuickTable

end Sane

/-- The quick table fails exactly when some bucket is lost, and otherwise loses
nothing: see `Kept`. -/
theorem buildQuickTable_kept {strategy : Strategy shape δ} {builder : TableBuilder δ}
    (built : Built strategy builder) (source : HashTable shape) :
    ((∃ stopped, Work.buildQuickTable ⟨builder, source⟩ = .error stopped) ↔
        ∃ idx, ∀ line, builder.isNodeAvailble (source.get line idx) = false) ∧
      ∀ result, Work.buildQuickTable ⟨builder, source⟩ = .ok result →
        ∀ idx, Kept builder.isNodeAvailble (fun line => source.get line idx)
          (fun line => result.table.get line idx) := by
  rcases Work.buildQuickTable_cases builder source (Sane.of_built built).nonneg with
    ⟨result, ok, -, rows⟩ | ⟨⟨stopped, failed⟩, lost⟩
  · have kept : ∀ idx, Kept builder.isNodeAvailble (fun line => source.get line idx)
        (fun line => result.table.get line idx) := by
      intro idx
      obtain ⟨row, promoted, quick⟩ := rows idx
      change Kept _ _ (result.row idx)
      rw [quick]
      exact kept_of_promoted promoted (fun _ => rfl)
    constructor
    · constructor
      · rintro ⟨stopped, failed⟩
        rw [ok] at failed
        cases failed
      · rintro ⟨idx, lost⟩
        obtain ⟨line, held⟩ := (kept idx).masterHeld
        have alive := (kept idx).masterAlive
        rw [← held, lost line] at alive
        cases alive
    · intro other same
      rw [ok] at same
      cases same
      exact kept
  · constructor
    · exact ⟨fun _ => lost, fun _ => ⟨stopped, failed⟩⟩
    · intro result ok
      rw [failed] at ok
      cases ok

def sampleDead : HashTable sampleShape :=
  Grid.ofFn (fun line _ => if line = sampleShape.master then ⟨9, 9⟩ else ⟨2, 2⟩)

theorem sampleBuilt : Built (TableBuilder1.strategy sampleShape)
    ((TableBuilder.construct 0 TableBuilder1.unsetLimits).setAvailableServer
      sampleNodes.serverIds) :=
  .setAvailableServer (.construct 0 TableBuilder1.unsetLimits) sampleNodes

theorem buildQuickTable_kept_sample :
    ∃ result, Work.buildQuickTable (⟨(TableBuilder.construct 0
        TableBuilder1.unsetLimits).setAvailableServer sampleNodes.serverIds, sampleDead⟩ :
          Work sampleShape TableBuilder1.Limits) = .ok result ∧
      ∀ idx, result.table.get sampleShape.master idx = ⟨2, 2⟩ ∧
        Kept ((TableBuilder.construct 0 TableBuilder1.unsetLimits).setAvailableServer
            sampleNodes.serverIds).isNodeAvailble
          (fun line => sampleDead.get line idx) (fun line => result.table.get line idx) :=
  ⟨_, rfl, fun idx => ⟨by revert idx; decide +kernel,
    (buildQuickTable_kept sampleBuilt sampleDead).2 _ rfl idx⟩⟩

/-! ### The counters while a table is rebuilt -/

theorem Counted.quickMaster {work : Work shape δ} (counted : Counted work) (idx : shape.Bucket) :
    Counted (Scan.reached (work.quickMaster idx)) := by
  rcases Work.quickMaster_cases work idx counted.sane.nonneg with
    ⟨-, ok⟩ | ⟨-, line, slave, alive, ok⟩ | ⟨-, failed⟩
  · rw [ok]
    exact counted
  · rw [ok]
    exact counted.swapMaster idx slave alive
  · rw [failed]
    exact counted

/-- What `rebuild_table` works on after the counting and the first turns of its loop. -/
def TableBuilder.passed (strategy : Strategy shape δ) (builder : TableBuilder δ)
    (source : HashTable shape) (noQuickTable : Bool) (count : Nat) : Work shape δ :=
  let work : Work shape δ := ⟨builder.prepare strategy source, source⟩
  if builder.needBuildQuickTable source ∧ noQuickTable = false then
    Scan.reached ((shape.buckets.take count).foldlM Work.quickMaster work)
  else if builder.availableServer.size < shape.copyCount then work
  else Scan.reached ((shape.turns.take count).foldlM (Work.turn strategy) work)

/-- It ends where its last turn leaves it, but for the slaves that a quick table clears. -/
theorem TableBuilder.rebuildTable_passed (strategy : Strategy shape δ) (builder : TableBuilder δ)
    (source : HashTable shape) (noQuickTable : Bool) :
    ∃ count, let last := builder.passed strategy source noQuickTable count
      (builder.rebuildTable strategy source noQuickTable).work ∈ [last, last.sweepSlaves] := by
  refine ⟨max shape.buckets.length shape.turns.length, ?_⟩
  unfold TableBuilder.rebuildTable TableBuilder.passed
  dsimp only
  rw [List.take_of_length_le (le_max_left ..), List.take_of_length_le (le_max_right ..)]
  split_ifs with quick few
  · unfold Work.buildQuickTable
    cases shape.buckets.foldlM Work.quickMaster (⟨builder.prepare strategy source, source⟩ :
      Work shape δ) with
    | ok mastered => exact List.mem_cons_of_mem _ List.mem_cons_self
    | error ended => exact List.mem_cons_self
  · exact List.mem_cons_self
  · rw [Rebuilt.ofPass_work, Work.checkTable_turns]
    exact List.mem_cons_self

/-- A server is counted right and stands on one shelf of either index. -/
structure TokenLedger.Exact (ledger : TokenLedger) (held : Nat) (node : ServerIdType) : Prop where
  count : ledger.count node = held
  counted : ∀ place, node ∈ ledger.countServer.shelf place ↔ place = held
  candidate : ∀ place, node ∈ ledger.candidateNode.shelf place ↔
    place = held - ledger.capable node

theorem Tracks.exact {ledger : TokenLedger} {servers : ServerList} {held : ServerIdType → Nat}
    (tracks : Tracks ledger servers (fun node => held node)) {node : ServerIdType}
    (member : node ∈ servers) : ledger.Exact (held node) node := by
  have count := tracks.counts node member
  refine ⟨count, fun place => ?_, fun place => ?_⟩
  · rw [tracks.shelved, count, and_iff_right member, eq_comm]
  · rw [tracks.candidates]
    dsimp only
    rw [count, and_iff_right member, eq_comm]

theorem counts_throughout_rebuildTable (strategy : Strategy shape δ) (builder : TableBuilder δ)
    (up : UpNodes) (source : HashTable shape) (noQuickTable : Bool) (count : Nat) :
    let work := (builder.setAvailableServer up.serverIds).passed strategy source noQuickTable count
    ∀ node ∈ work.builder.availableServer,
      work.builder.tokens.Exact (copies work.table node) node ∧
        work.builder.mtokens.Exact (masters work.table node) node := by
  have start := counted_prepare strategy (builder.setAvailableServer up.serverIds)
    (fun _ => builder.real_setAvailableServer up) source
  have counted : Counted ((builder.setAvailableServer up.serverIds).passed strategy source
      noQuickTable count) := by
    unfold TableBuilder.passed
    dsimp only
    split_ifs with quick few
    · exact Scan.foldlM_keeps Counted _ (fun _ idx _ kept => kept.quickMaster idx) _ start
    · exact start
    · exact start.turns strategy _
  intro work node member
  exact ⟨counted.tokens.exact member, counted.mtokens.exact member⟩

theorem counts_throughout_rebuildTable_sample :
    let work := ((TableBuilder.construct 0 TableBuilder1.unsetLimits).setAvailableServer
      sampleNodes.serverIds).passed (TableBuilder1.strategy sampleShape) sampleDead false 1
    work.builder.mtokens.Exact 1 ⟨2, 2⟩ :=
  (counts_throughout_rebuildTable _ _ _ _ _ _ ⟨2, 2⟩ (by decide +kernel)).2

end Tair.ConfigServer
