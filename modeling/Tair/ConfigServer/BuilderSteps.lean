/-
What one visit of the builder to an entry can do, for any strategy. The later
arguments about rows, counters and quotas all start from `checkNode_step`; none
of them looks into the search or into the swap again.
-/

import Tair.ConfigServer.TableBuilder

namespace Tair.ConfigServer

open Function Std Tair.Library

variable {shape : Shape} {δ : Type}

/-! ### What no step changes -/

structure Setup (δ : Type) where
  availableServer : ServerList
  serverCapable : TokenCount
  masterServerCapable : TokenCount
  derived : δ

namespace Work

variable (work : Work shape δ)

def setup : Setup δ :=
  ⟨work.builder.availableServer, work.builder.tokens.serverCapable,
    work.builder.mtokens.serverCapable, work.builder.derived⟩

def row (idx : shape.Bucket) : shape.Line → ServerIdType :=
  fun line => work.table.get line idx

@[simp] theorem setup_changeTokens (line : shape.Line) (node : ServerIdType) (minus : Bool) :
    (work.changeTokens line node minus).setup = work.setup := by
  unfold changeTokens setup
  by_cases isMaster : line = shape.master
  · simp only [if_pos isMaster]; rfl
  · simp only [if_neg isMaster]; rfl

@[simp] theorem setup_invaliadNode (line : shape.Line) (idx : shape.Bucket) :
    (work.invaliadNode line idx).setup = work.setup := by
  unfold invaliadNode
  by_cases counted : work.available (work.entry line idx) = true
  · simp only [if_pos counted]
    exact setup_changeTokens work line _ true
  · simp only [if_neg counted]; rfl

@[simp] theorem setup_updateNode (line : shape.Line) (idx : shape.Bucket) (node : ServerIdType) :
    (work.updateNode line idx node).setup = work.setup := by
  unfold updateNode
  by_cases counted : work.available node = true
  · simp only [if_pos counted]
    exact setup_changeTokens work line _ false
  · simp only [if_neg counted]; rfl

@[simp] theorem setup_swapMaster (idx : shape.Bucket) (line : shape.Line) :
    (work.swapMaster idx line).setup = work.setup := by
  unfold swapMaster setup
  by_cases back : work.available (work.entry shape.master idx) = true
  · simp only [if_pos back]; rfl
  · simp only [if_neg back]; rfl

@[simp] theorem setup_accountNode (strategy : Strategy shape δ) (work : Work shape δ)
    (node : ServerIdType) : (work.accountNode strategy node).setup = work.setup := rfl

theorem available_of_setup {work work' : Work shape δ} (same : work'.setup = work.setup) :
    work'.available = work.available := by
  have servers : work'.builder.availableServer = work.builder.availableServer :=
    congrArg Setup.availableServer same
  unfold available TableBuilder.isNodeAvailble
  rw [servers]

theorem derived_of_setup {work work' : Work shape δ} (same : work'.setup = work.setup) :
    work'.builder.derived = work.builder.derived :=
  congrArg Setup.derived same

/-! ### What a step does to the table -/

@[simp] theorem table_accountNode (strategy : Strategy shape δ) (work : Work shape δ)
    (node : ServerIdType) : (work.accountNode strategy node).table = work.table := rfl

@[simp] theorem table_invaliadNode (line : shape.Line) (idx : shape.Bucket) :
    (work.invaliadNode line idx).table =
      work.table.set line idx ⟨invalidFlag, (work.entry line idx).second⟩ := rfl

@[simp] theorem table_updateNode (line : shape.Line) (idx : shape.Bucket) (node : ServerIdType) :
    (work.updateNode line idx node).table = work.table.set line idx node := rfl

theorem table_swapMaster (idx : shape.Bucket) (line : shape.Line) :
    (work.swapMaster idx line).table =
      (work.table.set shape.master idx (work.entry line idx)).set line idx
        (if work.available (work.entry shape.master idx) then work.entry shape.master idx
          else ⟨invalidFlag, (work.entry line idx).second⟩) := rfl

theorem master_swapMaster (idx : shape.Bucket) {line : shape.Line} (slave : line ≠ shape.master) :
    (work.swapMaster idx line).row idx shape.master = work.entry line idx := by
  rw [row, table_swapMaster, Grid.get_set_of_line_ne _ _ _ _ slave.symm, Grid.get_set_self]

end Work

/-! ### The search for a server -/

theorem scanServers_cases (passes : ServerIdType → Bool) (origin : ServerIdType)
    (servers : List ServerIdType) (fits : ServerIdType) :
    (scanServers passes origin servers fits = fits ∧
        ∀ server ∈ servers, passes server = false) ∨
      ∃ server ∈ servers, passes server = true ∧
        scanServers passes origin servers fits = server := by
  induction servers generalizing fits with
  | nil => exact Or.inl ⟨rfl, fun _ member => absurd member List.not_mem_nil⟩
  | cons head tail ih =>
    unfold scanServers
    by_cases good : passes head = true
    · rw [if_pos good]
      by_cases original : head.first = origin.first
      · rw [if_pos original]
        exact Or.inr ⟨head, List.mem_cons_self, good, rfl⟩
      · rw [if_neg original]
        rcases ih head with ⟨kept, -⟩ | ⟨server, member, passed, result⟩
        · exact Or.inr ⟨head, List.mem_cons_self, good, kept⟩
        · exact Or.inr ⟨server, List.mem_cons_of_mem _ member, passed, result⟩
    · rw [if_neg good]
      rcases ih fits with ⟨kept, none⟩ | ⟨server, member, passed, result⟩
      · refine Or.inl ⟨kept, fun server member => ?_⟩
        rcases List.mem_cons.mp member with same | later
        · rw [same]
          exact Bool.eq_false_iff.mpr good
        · exact none server later
      · exact Or.inr ⟨server, List.mem_cons_of_mem _ member, passed, result⟩

theorem scanShelves_cases (level : Consider) (passes : ServerIdType → Bool)
    (origin : ServerIdType) (shelves : List (Int × ServerList)) (used : Nat) (fits : ServerIdType) :
    scanShelves level passes origin shelves used fits = fits ∨
      ∃ entry ∈ shelves, ∃ server ∈ entry.2.toList, passes server = true ∧
        scanShelves level passes origin shelves used fits = server := by
  induction shelves generalizing used fits with
  | nil => exact Or.inl rfl
  | cons head tail ih =>
    unfold scanShelves
    by_cases walks : used < level.rank + 1 ∧ fits.first = invalidFlag
    · rw [if_pos walks]
      rcases ih (if level.rank < Consider.base.rank then used + 1 else used)
          (scanServers passes origin head.2.toList fits) with
        kept | ⟨entry, member, server, inside, passed, result⟩
      · rw [kept]
        rcases scanServers_cases passes origin head.2.toList fits with
          ⟨same, -⟩ | ⟨server, inside, passed, result⟩
        · exact Or.inl same
        · exact Or.inr ⟨head, List.mem_cons_self, server, inside, passed, result⟩
      · exact Or.inr ⟨entry, List.mem_cons_of_mem _ member, server, inside, passed, result⟩
    · rw [if_neg walks]
      exact Or.inl rfl

/-- From `base` on every shelf is walked until a server is found. -/
theorem scanShelves_complete {level : Consider} {passes : ServerIdType → Bool}
    (origin : ServerIdType) (relaxed : Consider.base.rank ≤ level.rank)
    (real : ∀ server, passes server = true → server.first ≠ invalidFlag)
    (shelves : List (Int × ServerList)) (fits : ServerIdType) {entry : Int × ServerList}
    (member : entry ∈ shelves) {server : ServerIdType} (inside : server ∈ entry.2.toList)
    (passed : passes server = true) :
    (scanShelves level passes origin shelves 0 fits).first ≠ invalidFlag := by
  induction shelves generalizing fits with
  | nil => exact absurd member List.not_mem_nil
  | cons head tail ih =>
    unfold scanShelves
    by_cases found : fits.first = invalidFlag
    · rw [if_pos ⟨Nat.succ_pos _, found⟩, if_neg (Nat.not_lt.mpr relaxed)]
      rcases scanServers_cases passes origin head.2.toList fits with
        ⟨-, none⟩ | ⟨chosen, -, good, result⟩
      · rcases List.mem_cons.mp member with same | later
        · rw [← same] at none
          rw [none server inside] at passed
          exact absurd passed (by decide)
        · exact ih _ later
      · rw [result]
        rcases scanShelves_cases level passes origin tail 0 chosen with
          kept | ⟨-, -, other, -, goodOther, resultOther⟩
        · rw [kept]
          exact real chosen good
        · rw [resultOther]
          exact real other goodOther
    · rw [if_neg (fun walks => found walks.2)]
      exact found

namespace Work

section

variable (strategy : Strategy shape δ) (work : Work shape δ) (line : shape.Line)
  (idx : shape.Bucket) (origin : ServerIdType)

include strategy work line idx origin

theorem getSuitableNode_sound
    (found : (work.getSuitableNode strategy line idx origin).first ≠ invalidFlag) :
    ∃ level place, work.passes strategy line idx level
        (work.getSuitableNode strategy line idx origin) = true ∧
      work.getSuitableNode strategy line idx origin ∈
        ShelfIndex.shelf (work.ledgerOf line).candidateNode place := by
  suffices every : ∀ (levels : List Consider) (fits : ServerIdType),
      (fits.first = invalidFlag ∨
        ∃ level place, work.passes strategy line idx level fits = true ∧
          fits ∈ ShelfIndex.shelf (work.ledgerOf line).candidateNode place) →
      (levels.foldl (work.searchLevel strategy line idx origin) fits).first ≠ invalidFlag →
      ∃ level place, work.passes strategy line idx level
          (levels.foldl (work.searchLevel strategy line idx origin) fits) = true ∧
        levels.foldl (work.searchLevel strategy line idx origin) fits ∈
          ShelfIndex.shelf (work.ledgerOf line).candidateNode place from
    every Consider.levels noNode (Or.inl rfl) found
  intro levels
  induction levels with
  | nil =>
    intro fits start real
    rcases start with unset | passed
    · exact absurd unset real
    · exact passed
  | cons level rest ih =>
    intro fits start real
    refine ih _ ?_ real
    unfold searchLevel
    by_cases unset : fits.first = invalidFlag
    · rw [if_pos unset]
      rcases scanShelves_cases level (work.passes strategy line idx level) origin
          (work.ledgerOf line).candidateNode.toList 0 fits with
        kept | ⟨⟨place, standing⟩, met, server, inside, passed, result⟩
      · rw [kept]
        exact Or.inl unset
      · rw [result]
        refine Or.inr ⟨level, place, passed, ?_⟩
        rw [ShelfIndex.shelf_of_mem_toList met]
        exact TreeSet.mem_toList.mp inside
    · rw [if_neg unset]
      exact start

private theorem searchLevels_found (levels : List Consider) {fits : ServerIdType}
    (found : fits.first ≠ invalidFlag) :
    (levels.foldl (work.searchLevel strategy line idx origin) fits).first ≠
      invalidFlag := by
  induction levels with
  | nil => exact found
  | cons level rest ih =>
    rw [List.foldl_cons, searchLevel, if_neg found]
    exact ih

/-- The search succeeds when the index holds a server that passes at a level
which walks the whole index. -/
theorem getSuitableNode_complete
    (real : ∀ level server, work.passes strategy line idx level server = true →
      server.first ≠ invalidFlag) {level : Consider} (relaxed : Consider.base.rank ≤ level.rank)
    {server : ServerIdType} {place : Int}
    (stands : server ∈ ShelfIndex.shelf (work.ledgerOf line).candidateNode place)
    (passed : work.passes strategy line idx level server = true) :
    (work.getSuitableNode strategy line idx origin).first ≠ invalidFlag := by
  suffices every : ∀ (levels : List Consider) (fits : ServerIdType), level ∈ levels →
      (levels.foldl (work.searchLevel strategy line idx origin) fits).first ≠
        invalidFlag from
    every Consider.levels noNode (by cases level <;> decide)
  intro levels
  induction levels with
  | nil => exact fun _ member => absurd member List.not_mem_nil
  | cons head rest ih =>
    intro fits member
    by_cases unset : fits.first = invalidFlag
    · rcases List.mem_cons.mp member with same | later
      · rw [List.foldl_cons, ← same, searchLevel, if_pos unset]
        exact searchLevels_found strategy work line idx origin rest
          (scanShelves_complete origin relaxed (real level) _ fits
            (ShelfIndex.mem_toList_of_mem_shelf stands) (TreeSet.mem_toList.mpr stands) passed)
      · exact ih _ later
    · exact searchLevels_found strategy work line idx origin (head :: rest) unset

end

/-! ### One visit -/

variable {line : shape.Line} {work final : Work shape δ} {idx : shape.Bucket}
  {strategy : Strategy shape δ}

theorem chooseLine_slave (work : Work shape δ) (idx : shape.Bucket)
    (chosen : (work.chooseLine idx).1 = some line) :
    line ≠ shape.master ∧ work.available (work.entry line idx) = true := by
  suffices every : ∀ (lines : List shape.Line) (start : Option shape.Line × Int),
      (∀ other ∈ lines, other ≠ shape.master) →
      (start.1 = some line → line ≠ shape.master ∧ work.available (work.entry line idx) = true) →
      (lines.foldl (work.considerLine idx) start).1 = some line →
      line ≠ shape.master ∧ work.available (work.entry line idx) = true from
    every shape.slaves (none, -1) (fun _ member => Shape.mem_slaves.mp member)
      (fun bad => absurd bad (by simp)) chosen
  intro lines
  induction lines with
  | nil => exact fun start _ good result => good result
  | cons head rest ih =>
    intro start slaves good result
    refine ih _ (fun other member => slaves other (List.mem_cons_of_mem _ member)) ?_ result
    unfold considerLine
    split_ifs with alive smaller
    · intro same
      have isHead : head = line := Option.some.inj same
      rw [← isHead]
      exact ⟨slaves head List.mem_cons_self, alive⟩
    · exact good
    · exact good

theorem changeMasterNode_some {changed : Work shape δ}
    (success : work.changeMasterNode idx false = some changed) :
    ∃ line, line ≠ shape.master ∧ work.available (work.entry line idx) = true ∧
      work.builder.mtokens.count (work.entry line idx) <
        work.builder.mtokens.capable (work.entry line idx) ∧
      changed = work.swapMaster idx line := by
  unfold changeMasterNode at success
  split at success
  · cases success
  next line _ chosen =>
    obtain ⟨slave, alive⟩ := work.chooseLine_slave idx (congrArg Prod.fst chosen)
    simp only [true_and] at success
    split_ifs at success with unset full
    exact ⟨line, slave, alive, Int.not_le.mp full, (Option.some.inj success).symm⟩

inductive CheckStep (strategy : Strategy shape δ) (consider : Consider) (idx : shape.Bucket)
    (work : Work shape δ) (line : shape.Line) : Except (Work shape δ) (Work shape δ) → Prop
  | accept (good : strategy.isThisNodeOK work.builder (work.entry line idx) line idx work.table
        consider true = .nodeOK) :
      CheckStep strategy consider idx work line (.ok (work.accountNode strategy (work.entry line idx)))
  | swap (bad : strategy.isThisNodeOK work.builder (work.entry line idx) line idx work.table
        consider true ≠ .nodeOK) (isMaster : line = shape.master) (other : shape.Line)
      (slave : other ≠ shape.master) (alive : work.available (work.entry other idx) = true)
      (room : work.builder.mtokens.count (work.entry other idx) <
        work.builder.mtokens.capable (work.entry other idx)) :
      CheckStep strategy consider idx work line (.ok (work.swapMaster idx other))
  | replace (bad : strategy.isThisNodeOK work.builder (work.entry line idx) line idx work.table
        consider true ≠ .nodeOK) (node : ServerIdType)
      (search : (work.invaliadNode line idx).getSuitableNode strategy line idx
        (work.entry line idx) = node) (found : node.first ≠ invalidFlag) :
      CheckStep strategy consider idx work line
        (.ok (((work.invaliadNode line idx).updateNode line idx node).accountNode strategy node))
  | giveUp (bad : strategy.isThisNodeOK work.builder (work.entry line idx) line idx work.table
        consider true ≠ .nodeOK)
      (search : ((work.invaliadNode line idx).getSuitableNode strategy line idx
        (work.entry line idx)).first = invalidFlag) :
      CheckStep strategy consider idx work line (.error (work.invaliadNode line idx))

private theorem replaceNode_step {consider : Consider}
    (bad : strategy.isThisNodeOK work.builder (work.entry line idx) line idx work.table
      consider true ≠ .nodeOK) :
    CheckStep strategy consider idx work line (work.replaceNode strategy idx line) := by
  unfold replaceNode
  by_cases none : ((work.invaliadNode line idx).getSuitableNode strategy line idx
      (work.entry line idx)).first = invalidFlag
  · simp only [if_pos none]
    exact .giveUp bad none
  · simp only [if_neg none]
    exact .replace bad _ rfl none

theorem checkNode_step (strategy : Strategy shape δ) (consider : Consider) (idx : shape.Bucket)
    (work : Work shape δ) (line : shape.Line) :
    CheckStep strategy consider idx work line (work.checkNode strategy consider idx line) := by
  unfold checkNode
  by_cases good : strategy.isThisNodeOK work.builder (work.entry line idx) line idx work.table
      consider true = .nodeOK
  · simp only [if_pos good]
    exact .accept good
  · simp only [if_neg good]
    by_cases isMaster : line = shape.master
    · simp only [if_pos isMaster]
      cases changed : work.changeMasterNode idx false with
      | none => exact replaceNode_step good
      | some next =>
        obtain ⟨other, slave, alive, room, rfl⟩ := changeMasterNode_some changed
        exact .swap good isMaster other slave alive room
    · simp only [if_neg isMaster]
      exact replaceNode_step good

def Frame (idx : shape.Bucket) (before after : Work shape δ) : Prop :=
  after.setup = before.setup ∧ ∀ other, other ≠ idx → after.row other = before.row other

theorem row_set_other {table : HashTable shape} {other : shape.Bucket} (apart : other ≠ idx)
    (node : ServerIdType) :
    (fun copy => (table.set line idx node).get copy other) = fun copy => table.get copy other := by
  funext copy
  rw [Grid.get_set, if_neg (fun both => apart both.2)]

theorem row_set (table : HashTable shape) (line : shape.Line) (idx : shape.Bucket)
    (node : ServerIdType) :
    (fun copy => (table.set line idx node).get copy idx) =
      Function.update (fun copy => table.get copy idx) line node := by
  funext copy
  by_cases here : copy = line
  · rw [here, Grid.get_set_self, Function.update_self]
  · rw [Grid.get_set_of_line_ne _ _ _ _ here, Function.update_of_ne here]

theorem row_replace (strategy : Strategy shape δ) (work : Work shape δ) (line : shape.Line)
    (idx : shape.Bucket) (node : ServerIdType) :
    (((work.invaliadNode line idx).updateNode line idx node).accountNode strategy node).row idx =
      update (work.row idx) line node := by
  unfold row
  rw [table_accountNode, table_updateNode, table_invaliadNode, row_set, row_set, update_idem]

theorem checkNode_frame (strategy : Strategy shape δ) (work : Work shape δ) (consider : Consider)
    (idx : shape.Bucket) (line : shape.Line) :
    Frame idx work (Scan.reached (work.checkNode strategy consider idx line)) := by
  have step := checkNode_step strategy consider idx work line
  generalize work.checkNode strategy consider idx line = result at step ⊢
  cases step with
  | accept good => exact ⟨rfl, fun _ _ => rfl⟩
  | swap bad isMaster swapped slave alive room =>
    refine ⟨setup_swapMaster work idx swapped, fun other apart => ?_⟩
    exact (row_set_other apart _).trans (row_set_other apart _)
  | replace bad node search found =>
    refine ⟨by simp [Scan.reached], fun other apart => ?_⟩
    exact (row_set_other apart _).trans (row_set_other apart _)
  | giveUp bad search =>
    exact ⟨setup_invaliadNode work line idx, fun other apart => row_set_other apart _⟩

theorem checkBucket_frame (strategy : Strategy shape δ) (lineNumOut : Nat) (work : Work shape δ)
    (idx : shape.Bucket) :
    Frame idx work (Scan.reached (work.checkBucket strategy lineNumOut idx)) := by
  refine Scan.foldlM_keeps (Frame idx work) (shape.visited lineNumOut) ?_ work
    ⟨rfl, fun _ _ => rfl⟩
  intro state line _ kept
  obtain ⟨setup, rows⟩ := checkNode_frame strategy state (if lineNumOut = 0 then .base else .all)
    idx line
  exact ⟨setup.trans kept.1, fun other apart => (rows other apart).trans (kept.2 other apart)⟩

/-! ### Whole rounds -/

theorem fresh_of_split {before after : List shape.Bucket}
    (split : shape.buckets = before ++ idx :: after) : idx ∉ before := by
  have apart := shape.buckets_nodup
  rw [split, List.nodup_append] at apart
  exact fun member => apart.2.2 idx member idx List.mem_cons_self rfl

/-- A round that turns every row it finds with `Pre` into one with `Post` does
so for the whole table. Rows are visited once, and a visit leaves the others. -/
theorem checkRound_rows {lineNumOut : Nat} (fixed : Setup δ)
    (Pre Post : shape.Bucket → (shape.Line → ServerIdType) → Prop)
    (bucket : ∀ (work next : Work shape δ) (idx : shape.Bucket), work.setup = fixed →
      Pre idx (work.row idx) → work.checkBucket strategy lineNumOut idx = .ok next →
      Post idx (next.row idx)) (setup : work.setup = fixed) (start : ∀ idx, Pre idx (work.row idx))
    (done : work.checkRound strategy lineNumOut = .ok final) :
    final.setup = fixed ∧ ∀ idx, Post idx (final.row idx) := by
  have walked := Scan.foldlM_ok
    (fun before (state : Work shape δ) => state.setup = fixed ∧
      ∀ idx, (idx ∈ before → Post idx (state.row idx)) ∧ (idx ∉ before → Pre idx (state.row idx)))
    shape.buckets work
    ⟨setup, fun idx => ⟨fun member => absurd member List.not_mem_nil, fun _ => start idx⟩⟩ ?_ done
  · exact ⟨walked.1, fun idx => (walked.2 idx).1 (Shape.mem_buckets idx)⟩
  · intro before idx after state next split kept ran
    have fresh := fresh_of_split split
    have framed := checkBucket_frame strategy lineNumOut state idx
    rw [ran] at framed
    refine ⟨framed.1.trans kept.1, fun other => ?_⟩
    by_cases same : other = idx
    · rw [same]
      refine ⟨fun _ => bucket state next idx kept.1 ((kept.2 idx).2 fresh) ran, ?_⟩
      exact fun absent => absurd (List.mem_append_right before List.mem_cons_self) absent
    · have unchanged : next.row other = state.row other := framed.2 other same
      rw [unchanged]
      refine ⟨fun member => (kept.2 other).1 ?_, fun absent => (kept.2 other).2 ?_⟩
      · rcases List.mem_append.mp member with prior | here
        · exact prior
        · exact absurd (List.mem_singleton.mp here) same
      · exact fun prior => absent (List.mem_append_left _ prior)

theorem checkNode_keeps_master {next : Work shape δ} {consider : Consider}
    (slave : line ≠ shape.master) (ran : work.checkNode strategy consider idx line = .ok next) :
    next.row idx shape.master = work.row idx shape.master := by
  have step := checkNode_step strategy consider idx work line
  rw [ran] at step
  cases step with
  | accept good => rfl
  | swap bad isMaster other otherSlave alive room => exact absurd isMaster slave
  | replace bad node search found =>
    rw [row_replace, update_of_ne slave.symm]

theorem slavesRound_keeps_masters (done : work.checkRound strategy 1 = .ok final)
    (idx : shape.Bucket) : final.row idx shape.master = work.row idx shape.master := by
  refine (checkRound_rows work.setup
    (fun idx row => row shape.master = work.row idx shape.master)
    (fun idx row => row shape.master = work.row idx shape.master)
    ?_ rfl (fun _ => rfl) done).2 idx
  intro state next idx _ start ran
  unfold checkBucket at ran
  rw [Shape.visited_one] at ran
  refine Scan.foldlM_ok
    (fun _ (reached : Work shape δ) =>
      reached.row idx shape.master = work.row idx shape.master) shape.slaves state start ?_ ran
  intro before line after reached more split kept visit
  have slave : line ≠ shape.master := by
    apply Shape.mem_slaves.mp
    rw [split]
    exact List.mem_append_right before List.mem_cons_self
  exact (checkNode_keeps_master slave visit).trans kept

theorem mastersBucket_ok {next : Work shape δ} (ran : work.checkBucket strategy 0 idx = .ok next) :
    work.checkNode strategy .base idx shape.master = .ok next := by
  unfold checkBucket at ran
  rw [Shape.visited_zero, List.foldlM_cons, if_pos rfl] at ran
  obtain ⟨reached, visit, rest⟩ := ok_of_bind ran
  cases rest
  exact visit

/-- The round of the masters, then the round of the slaves. With a single copy
the second round has nothing to visit, so it can be run as well. -/
theorem checkTable_eq (strategy : Strategy shape δ) (work : Work shape δ) :
    work.checkTable strategy =
      (work.checkRound strategy 0 >>= fun mastered => mastered.checkRound strategy 1) := by
  unfold checkTable
  by_cases single : shape.copyCount = 1
  · have noSlaves : shape.visited 1 = [] := by
      rw [Shape.visited_one, List.eq_nil_iff_forall_not_mem]
      intro line member
      refine Shape.mem_slaves.mp member (Fin.ext ?_)
      have bound := line.isLt
      change line.val = 0
      omega
    have idle : ∀ mastered : Work shape δ, mastered.checkRound strategy 1 = .ok mastered := by
      intro mastered
      unfold checkRound checkBucket
      rw [noSlaves]
      induction shape.buckets with
      | nil => rfl
      | cons head rest ih => exact ih
    have one : List.range (min 2 shape.copyCount) = [0] := by rw [single]; rfl
    rw [one, List.foldlM_cons]
    exact bind_congr (fun mastered => (idle mastered).symm)
  · have two : List.range (min 2 shape.copyCount) = [0, 1] := by
      have copies : min 2 shape.copyCount = 2 := by
        have pos := shape.copyPositive
        omega
      rw [copies]
      rfl
    rw [two, List.foldlM_cons]
    refine bind_congr (fun mastered => ?_)
    rw [List.foldlM_cons]
    cases mastered.checkRound strategy 1 with
    | error ended => rfl
    | ok done => rfl

theorem checkTable_ok (done : work.checkTable strategy = .ok final) :
    ∃ mastered, work.checkRound strategy 0 = .ok mastered ∧
      mastered.checkRound strategy 1 = .ok final := by
  rw [checkTable_eq] at done
  exact ok_of_bind done

end Work

namespace TableBuilder

theorem rebuildTable_buildOK {strategy : Strategy shape δ} {builder : TableBuilder δ}
    {source : HashTable shape} {noQuickTable : Bool}
    (built : (builder.rebuildTable strategy source noQuickTable).code = .buildOK) :
    shape.copyCount ≤ builder.availableServer.size ∧
      Work.checkTable strategy ⟨builder.prepare strategy source, source⟩ =
        .ok (builder.rebuildTable strategy source noQuickTable).work := by
  unfold rebuildTable at built ⊢
  by_cases quick : builder.needBuildQuickTable source = true ∧ noQuickTable = false
  · simp only [if_pos quick] at built
    cases pass : Work.buildQuickTable ⟨builder.prepare strategy source, source⟩ with
    | error ended => rw [pass] at built; cases built
    | ok table => rw [pass] at built; cases built
  · simp only [if_neg quick] at built ⊢
    by_cases few : builder.availableServer.size < shape.copyCount
    · simp only [if_pos few] at built
      cases built
    · simp only [if_neg few] at built ⊢
      refine ⟨Nat.not_lt.mp few, ?_⟩
      cases pass : Work.checkTable strategy ⟨builder.prepare strategy source, source⟩ with
      | error ended => rw [pass] at built; cases built
      | ok done => rfl

theorem rebuildTable_code (builder : TableBuilder δ) (strategy : Strategy shape δ)
    (source : HashTable shape) :
    (builder.rebuildTable strategy source true).code = .buildOK ∨
      (builder.rebuildTable strategy source true).code = .buildError := by
  unfold rebuildTable
  dsimp only
  rw [if_neg (fun both => absurd both.2 (by decide))]
  split_ifs with few
  · exact Or.inr rfl
  · cases Work.checkTable strategy ⟨builder.prepare strategy source, source⟩ with
    | ok work => exact Or.inl rfl
    | error work => exact Or.inr rfl

theorem mem_setAvailableServer (builder : TableBuilder δ) (serverIds : List UInt64)
    (node : ServerIdType) :
    node ∈ (builder.setAvailableServer serverIds).availableServer ↔
      ∃ id ∈ serverIds, nodeOf builder.posMask id = node := by
  suffices every : ∀ (ids : List UInt64) (servers : ServerList),
      node ∈ ids.foldl (fun servers id => servers.insert (nodeOf builder.posMask id))
        servers ↔ node ∈ servers ∨ ∃ id ∈ ids, nodeOf builder.posMask id = node by
    change node ∈ serverIds.foldl _ ∅ ↔ _
    rw [every]
    simp
  intro ids
  induction ids with
  | nil => simp
  | cons head rest ih =>
    intro servers
    rw [List.foldl_cons, ih, TreeSet.mem_insert, LawfulEqCmp.compare_eq_iff_eq]
    simp only [List.mem_cons, exists_eq_or_imp]
    rw [or_comm (a := nodeOf builder.posMask head = node), or_assoc]

theorem real_setAvailableServer (builder : TableBuilder δ) (up : UpNodes) {node : ServerIdType}
    (member : node ∈ (builder.setAvailableServer up.serverIds).availableServer) :
    node.first ≠ invalidFlag := by
  obtain ⟨id, listed, same⟩ := (mem_setAvailableServer builder up.serverIds node).mp member
  rw [← same]
  exact up.real id listed

theorem isNodeAvailble_iff {builder : TableBuilder δ} {node : ServerIdType} :
    builder.isNodeAvailble node = true ↔
      node.first ≠ invalidFlag ∧ node ∈ builder.availableServer := by
  unfold isNodeAvailble
  split_ifs with unset
  · simp [unset]
  · simp [unset]

end TableBuilder

end Tair.ConfigServer
