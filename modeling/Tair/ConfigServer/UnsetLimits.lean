/-
How a build of the second strategy depends on the limits it never sets. Two builds with different
limits go side by side as long as every search is forced. The first search that is not forced can
be turned, and the entry it fills is not visited again.
-/

import Tair.ConfigServer.Placement
import Tair.ConfigServer.RelaxedSearch
import Tair.ConfigServer.TokenCounts

namespace Tair.ConfigServer.TableBuilder2

open Std Tair.Library

variable {shape : Shape}

/-! ### Runs side by side -/

structure Varied (limits : RoomLimits) (work other : Work shape Rooms) : Prop where
  nonneg : ∀ node, 0 ≤ work.builder.tokensCountInNodeNow.getD node 0
  varied : ∃ maxCountNow, 0 ≤ maxCountNow ∧ other = vary work maxCountNow limits

theorem nonneg_increment {counts : TokenCount} (nonneg : ∀ node, 0 ≤ counts.getD node 0)
    (server node : ServerIdType) : 0 ≤ (counts.insert server (counts.getD server 0 + 1)).getD node 0 := by
  rw [TreeMap.getD_insert]
  have grown := nonneg server
  split_ifs
  · omega
  · exact nonneg node

namespace Varied

variable {limits : RoomLimits} {work other : Work shape Rooms}

section

variable (varied : Varied limits work other)

include varied

theorem account (node : ServerIdType) :
    Varied limits (work.accountNode (strategy shape) node)
      (other.accountNode (strategy shape) node) := by
  obtain ⟨limit, pos, rfl⟩ := varied.varied
  refine ⟨nonneg_increment varied.nonneg node, ?_⟩
  unfold Work.accountNode
  refine ⟨_, ?_, rfl⟩
  split_ifs
  · exact Int.add_nonneg pos (by decide)
  · exact pos

theorem invaliad (line : shape.Line) (idx : shape.Bucket) :
    Varied limits (work.invaliadNode line idx) (other.invaliadNode line idx) := by
  obtain ⟨limit, pos, rfl⟩ := varied.varied
  have now : (work.invaliadNode line idx).builder.tokensCountInNodeNow =
      work.builder.tokensCountInNodeNow := by
    unfold Work.invaliadNode
    by_cases alive : work.available (work.entry line idx) = true
    · simp only [if_pos alive]
      rfl
    · simp only [if_neg alive]
  refine ⟨?_, limit, pos, invaliadNode_vary work limit limits line idx⟩
  rw [now]
  exact varied.nonneg

theorem update (line : shape.Line) (idx : shape.Bucket) (node : ServerIdType) :
    Varied limits (work.updateNode line idx node) (other.updateNode line idx node) := by
  obtain ⟨limit, pos, rfl⟩ := varied.varied
  have same : (vary work limit limits).available node = work.available node := rfl
  unfold Work.updateNode
  dsimp only
  rw [same]
  by_cases alive : work.available node = true
  · simp only [if_pos alive]
    exact ⟨varied.nonneg, limit, pos, rfl⟩
  · simp only [if_neg alive]
    exact ⟨varied.nonneg, limit, pos, rfl⟩

theorem changeMaster (idx : shape.Bucket) (forceFlag : Bool) :
    (work.changeMasterNode idx forceFlag = none ∧ other.changeMasterNode idx forceFlag = none) ∨
      ∃ changed changed', work.changeMasterNode idx forceFlag = some changed ∧
        other.changeMasterNode idx forceFlag = some changed' ∧ Varied limits changed changed' := by
  obtain ⟨limit, pos, rfl⟩ := varied.varied
  rw [changeMasterNode_vary]
  cases result : work.changeMasterNode idx forceFlag with
  | none => exact Or.inl ⟨rfl, rfl⟩
  | some changed =>
    refine Or.inr ⟨changed, _, rfl, rfl, ?_, limit, pos, rfl⟩
    have swapped : ∃ line, changed = work.swapMaster idx line := by
      unfold Work.changeMasterNode at result
      split at result
      · cases result
      next line _ _ =>
        split_ifs at result
        exact ⟨line, (Option.some.inj result).symm⟩
    obtain ⟨line, rfl⟩ := swapped
    exact nonneg_increment varied.nonneg _

theorem replace {idx : shape.Bucket} {line : shape.Line}
    (agree : (other.invaliadNode line idx).getSuitableNode (strategy shape) line idx
        (other.entry line idx) =
      (work.invaliadNode line idx).getSuitableNode (strategy shape) line idx (work.entry line idx)) :
    Scan.Related (Varied limits) (work.replaceNode (strategy shape) idx line)
      (other.replaceNode (strategy shape) idx line) := by
  have clean := varied.invaliad line idx
  unfold Work.replaceNode
  dsimp only
  rw [agree]
  split_ifs with unset
  · exact .error clean
  · exact .ok ((clean.update line idx _).account _)

theorem visit {consider : Consider} {idx : shape.Bucket} {line : shape.Line}
    (decided : line = shape.master ∨ (line ≠ shape.master ∧ consider = .all ∧
      (isThisNodeOK work.builder (work.entry line idx) line idx work.table .all true ≠ .nodeOK →
        Forced (work.invaliadNode line idx) line idx (work.entry line idx)))) :
    Scan.Related (Varied limits) (work.checkNode (strategy shape) consider idx line)
      (other.checkNode (strategy shape) consider idx line) := by
  obtain ⟨limit, pos, rfl⟩ := varied.varied
  have entry : (vary work limit limits).entry line idx = work.entry line idx := rfl
  have status : (strategy shape).isThisNodeOK (vary work limit limits).builder
      (work.entry line idx) line idx (vary work limit limits).table consider true =
        (strategy shape).isThisNodeOK work.builder (work.entry line idx) line idx work.table
          consider true := by
    refine isThisNodeOK_vary work limit limits ?_ _ idx true
    rcases decided with isMaster | ⟨-, first, -⟩
    · exact Or.inl isMaster
    · exact Or.inr (Or.inl first)
  unfold Work.checkNode
  dsimp only
  rw [entry, status]
  by_cases good : (strategy shape).isThisNodeOK work.builder (work.entry line idx) line idx
      work.table consider true = .nodeOK
  · rw [if_pos good, if_pos good]
    exact .ok (varied.account _)
  · rw [if_neg good, if_neg good]
    rcases decided with isMaster | ⟨slave, first, forced⟩
    · subst isMaster
      have agree : ((vary work limit limits).invaliadNode shape.master idx).getSuitableNode
          (strategy shape) shape.master idx (work.entry shape.master idx) =
            (work.invaliadNode shape.master idx).getSuitableNode (strategy shape) shape.master idx
              (work.entry shape.master idx) := by
        rw [invaliadNode_vary, search_master_vary]
      rw [if_pos rfl, if_pos rfl]
      rcases varied.changeMaster idx false with
        ⟨none, none'⟩ | ⟨changed, changed', some, some', next⟩
      · rw [none, none']
        exact varied.replace agree
      · rw [some, some']
        exact .ok next
    · rw [if_neg slave, if_neg slave]
      subst first
      have left := forced good
      have right := forced_vary left limit limits
      refine varied.replace ?_
      rw [entry, invaliadNode_vary, search_of_forced slave left, search_of_forced slave right,
        strictPick_vary, forcedPick_vary]

theorem mastersRound :
    Scan.Related (Varied limits) (work.checkRound (strategy shape) 0)
      (other.checkRound (strategy shape) 0) := by
  refine Scan.foldlM_related (Varied limits) shape.buckets work other varied ?_
  intro before idx after state state' split reached between
  unfold Work.checkBucket
  rw [Shape.visited_zero]
  refine Scan.foldlM_related (Varied limits) [shape.master] state state' between ?_
  intro before line after inner inner' onlyMaster reached related
  have isMaster : line = shape.master := by
    have member : line ∈ [shape.master] := by
      rw [onlyMaster]
      exact List.mem_append_right before List.mem_cons_self
    exact List.mem_singleton.mp member
  exact related.visit (Or.inl isMaster)

theorem quickMaster (idx : shape.Bucket) :
    Scan.Related (Varied limits) (work.quickMaster idx) (other.quickMaster idx) := by
  have same : other.available (other.entry shape.master idx) =
      work.available (work.entry shape.master idx) := by
    obtain ⟨limit, pos, rfl⟩ := varied.varied
    rfl
  unfold Work.quickMaster
  rw [same]
  by_cases alive : work.available (work.entry shape.master idx) = true
  · rw [if_pos alive, if_pos alive]
    exact .ok varied
  · rw [if_neg alive, if_neg alive]
    rcases varied.changeMaster idx true with
      ⟨none, none'⟩ | ⟨changed, changed', some, some', next⟩
    · rw [none, none']
      exact .error varied
    · rw [some, some']
      exact .ok next

theorem table : work.table = other.table := by
  obtain ⟨limit, pos, rfl⟩ := varied.varied
  rfl

theorem buildQuickTable :
    Scan.Related (fun left right => left.table = right.table) work.buildQuickTable
      other.buildQuickTable := by
  have walked : Scan.Related (Varied limits) (shape.buckets.foldlM Work.quickMaster work)
      (shape.buckets.foldlM Work.quickMaster other) :=
    Scan.foldlM_related (Varied limits) shape.buckets work other varied
      (fun _ idx _ _ _ _ _ related => related.quickMaster idx)
  unfold Work.buildQuickTable
  generalize shape.buckets.foldlM Work.quickMaster work = left at walked
  generalize shape.buckets.foldlM Work.quickMaster other = right at walked
  cases walked with
  | ok related =>
    obtain ⟨limit, pos, rfl⟩ := related.varied
    exact .ok rfl
  | error related => exact .error related.table

end

end Varied

/-! ### The round of the slaves as one walk -/

def slaveVisits (shape : Shape) : List (shape.Bucket × shape.Line) :=
  shape.buckets ×ˢ shape.slaves

def visitSlave (work : Work shape Rooms) (visit : shape.Bucket × shape.Line) :
    Except (Work shape Rooms) (Work shape Rooms) :=
  work.checkNode (strategy shape) .all visit.1 visit.2

theorem checkRound_one (work : Work shape Rooms) :
    work.checkRound (strategy shape) 1 = (slaveVisits shape).foldlM visitSlave work := by
  suffices every : ∀ (buckets : List shape.Bucket) (work : Work shape Rooms),
      buckets.foldlM (Work.checkBucket (strategy shape) 1) work =
        (buckets ×ˢ shape.slaves).foldlM visitSlave work from every shape.buckets work
  intro buckets
  induction buckets with
  | nil => exact fun _ => rfl
  | cons head rest ih =>
    intro work
    have here : work.checkBucket (strategy shape) 1 head =
        shape.slaves.foldlM (fun state line => visitSlave state (head, line)) work := by
      unfold Work.checkBucket
      rw [Shape.visited_one]
      rfl
    rw [List.foldlM_cons, List.product_cons, List.foldlM_append, List.foldlM_map, here]
    exact bind_congr ih

variable {before after : List (shape.Bucket × shape.Line)} {idx : shape.Bucket} {line : shape.Line}

theorem slave_of_split (split : slaveVisits shape = before ++ (idx, line) :: after) :
    line ≠ shape.master := by
  have member : (idx, line) ∈ slaveVisits shape := by
    rw [split]
    exact List.mem_append_right before List.mem_cons_self
  exact Shape.mem_slaves.mp (List.mem_product.mp member).2

theorem entry_kept (split : slaveVisits shape = before ++ (idx, line) :: after)
    (work : Work shape Rooms) :
    (Scan.reached (after.foldlM visitSlave work)).table.get line idx = work.table.get line idx := by
  have distinct : (slaveVisits shape).Nodup :=
    shape.buckets_nodup.product ((List.nodup_finRange _).filter _)
  rw [split] at distinct
  have gone : (idx, line) ∉ after :=
    (List.nodup_cons.mp (List.nodup_append.mp distinct).2.1).1
  refine Scan.foldlM_keeps (fun state : Work shape Rooms =>
    state.table.get line idx = work.table.get line idx) after ?_ work rfl
  rintro state ⟨bucket, copy⟩ member kept
  have apart : ¬(line = copy ∧ idx = bucket) := by
    rintro ⟨rfl, rfl⟩
    exact gone member
  have slave : copy ≠ shape.master := by
    have visited : (bucket, copy) ∈ slaveVisits shape := by
      rw [split]
      exact List.mem_append_right before (List.mem_cons_of_mem _ member)
    exact Shape.mem_slaves.mp (List.mem_product.mp visited).2
  have step := Work.checkNode_step (strategy shape) .all bucket state copy
  change (Scan.reached (state.checkNode (strategy shape) .all bucket copy)).table.get line idx = _
  generalize state.checkNode (strategy shape) .all bucket copy = result at step ⊢
  cases step with
  | accept good => exact kept
  | swap bad isMaster => exact absurd isMaster slave
  | replace bad node search found =>
    refine Eq.trans ?_ kept
    exact (Grid.get_set _ _ _ _ _ _).trans ((if_neg apart).trans
      ((Grid.get_set _ _ _ _ _ _).trans (if_neg apart)))
  | giveUp bad search =>
    refine Eq.trans ?_ kept
    exact (Grid.get_set _ _ _ _ _ _).trans (if_neg apart)

/-! ### Builds -/

section Builds

variable (builder : TableBuilder Rooms) (serverIds : List UInt64) (source dest : HashTable shape)
  (noQuickTable : Bool)

variable (limits : RoomLimits)

def build : Option (BuildCode × HashTable shape) :=
  (rebuildTable (setAvailableServer shape (withLimits builder limits) serverIds) source dest
    noQuickTable).map (fun rebuilt => (rebuilt.code, rebuilt.work.table))

def zeroLimits : RoomLimits := ⟨0, 0, 0, 0⟩

def prepared : Work shape Rooms :=
  ⟨(setAvailableServer shape (withLimits builder limits) serverIds).prepare (strategy shape) source,
    source⟩

def Checks : Prop :=
  (setAvailableServer shape builder serverIds).derived.buildStatNormal = true ∧
    1 < shape.copyCount ∧
    ¬((setAvailableServer shape builder serverIds).needBuildQuickTable source = true ∧
      noQuickTable = false)

/-- Every search for a slave is forced, in the build that starts with limits 0. -/
def ChoiceForced : Prop :=
  Checks builder serverIds source noQuickTable →
    ∀ (mastered state : Work shape Rooms) (before after : List (shape.Bucket × shape.Line))
      (idx : shape.Bucket) (line : shape.Line),
      (prepared builder serverIds source zeroLimits).checkRound (strategy shape) 0 = .ok mastered →
      slaveVisits shape = before ++ (idx, line) :: after →
      before.foldlM visitSlave mastered = .ok state →
      isThisNodeOK state.builder (state.entry line idx) line idx state.table .all true ≠ .nodeOK →
      Forced (state.invaliadNode line idx) line idx (state.entry line idx)

theorem prepared_varied :
    Varied limits (prepared builder serverIds source zeroLimits)
      (prepared builder serverIds source limits) := by
  refine ⟨fun node => ?_, 0, Int.le_refl 0, rfl⟩
  let ready := setAvailableServer shape (withLimits builder zeroLimits) serverIds
  have holds := holds_initTokenCount ready
  change 0 ≤ ready.initTokenCount.getD node 0
  by_cases member : node ∈ ready.availableServer
  · rw [holds.counts node member]
  · rw [TreeMap.getD_eq_fallback (fun known => member ((holds.keys node).mp known))]

variable {builder serverIds source dest noQuickTable}

/-- The limits are seen in the walks over the table only. -/
theorem build_eq :
    build builder serverIds source dest noQuickTable limits =
      if (setAvailableServer shape builder serverIds).derived.buildStatNormal = false then
        some (.buildError, dest)
      else if shape.copyCount ≤ 1 then none
      else
        let work := prepared builder serverIds source limits
        let rebuilt : TableBuilder.Rebuilt shape Rooms :=
          if (setAvailableServer shape builder serverIds).needBuildQuickTable source = true ∧
              noQuickTable = false then .ofPass .buildQuick work.buildQuickTable
          else if (setAvailableServer shape builder serverIds).availableServer.size <
              shape.copyCount then ⟨.buildError, work⟩
          else .ofPass .buildOK (work.checkTable (strategy shape))
        some (rebuilt.code, rebuilt.work.table) := by
  change Option.map _ (if _ then _ else if _ then _ else _) = _
  rw [apply_ite (Option.map _), apply_ite (Option.map _)]
  rfl

theorem ofPass_same {left right : Except (Work shape Rooms) (Work shape Rooms)}
    (success : BuildCode)
    (related : Scan.Related (fun left right => left.table = right.table) left right) :
    some ((TableBuilder.Rebuilt.ofPass success left).code,
        (TableBuilder.Rebuilt.ofPass success left).work.table) =
      some ((TableBuilder.Rebuilt.ofPass success right).code,
        (TableBuilder.Rebuilt.ofPass success right).work.table) := by
  cases related with
  | ok table => exact congrArg (fun table => some (success, table)) table
  | error table => exact congrArg (fun table => some (BuildCode.buildError, table)) table

theorem build_checked (checks : Checks builder serverIds source noQuickTable) (limits : RoomLimits) :
    build builder serverIds source dest noQuickTable limits =
      some ((TableBuilder.Rebuilt.ofPass .buildOK
          ((prepared builder serverIds source limits).checkTable (strategy shape))).code,
        (TableBuilder.Rebuilt.ofPass .buildOK
          ((prepared builder serverIds source limits).checkTable (strategy shape))).work.table) := by
  obtain ⟨normal, copies, slow⟩ := checks
  have enough : ¬(setAvailableServer shape builder serverIds).availableServer.size <
      shape.copyCount := by
    intro few
    have abnormal : (setAvailableServer shape builder serverIds).derived.buildStatNormal = false := by
      change statNormal _ _ _ _ = false
      unfold statNormal
      have counted : decide ((builder.setAvailableServer serverIds).availableServer.size <
        shape.copyCount) = true := decide_eq_true few
      simp only [counted, Bool.or_true, Bool.true_or, Bool.not_true]
    rw [normal] at abnormal
    cases abnormal
  rw [build_eq, if_neg (by rw [normal]; decide), if_neg (Nat.not_le.mpr copies)]
  simp only [if_neg slow, if_neg enough]

theorem build_unchecked (unchecked : ¬Checks builder serverIds source noQuickTable)
    (limits : RoomLimits) :
    build builder serverIds source dest noQuickTable limits =
      build builder serverIds source dest noQuickTable zeroLimits := by
  rw [build_eq, build_eq]
  by_cases abnormal : (setAvailableServer shape builder serverIds).derived.buildStatNormal = false
  · rw [if_pos abnormal, if_pos abnormal]
  · rw [if_neg abnormal, if_neg abnormal]
    by_cases single : shape.copyCount ≤ 1
    · rw [if_pos single, if_pos single]
    · have quick : (setAvailableServer shape builder serverIds).needBuildQuickTable source = true ∧
          noQuickTable = false := by
        by_contra slow
        exact unchecked ⟨Bool.not_eq_false _ ▸ abnormal, Nat.not_le.mp single, slow⟩
      simp only [if_neg single, if_pos quick]
      exact (ofPass_same .buildQuick
        (prepared_varied builder serverIds source limits).buildQuickTable).symm

theorem visits_related {limits : RoomLimits} {mastered mastered' : Work shape Rooms}
    (varied : Varied limits mastered mastered') (visits : List (shape.Bucket × shape.Line))
    (forced : ∀ before idx line after state, visits = before ++ (idx, line) :: after →
      before.foldlM visitSlave mastered = .ok state → line ≠ shape.master ∧
        (isThisNodeOK state.builder (state.entry line idx) line idx state.table .all true ≠ .nodeOK →
          Forced (state.invaliadNode line idx) line idx (state.entry line idx))) :
    Scan.Related (Varied limits) (visits.foldlM visitSlave mastered)
      (visits.foldlM visitSlave mastered') := by
  refine Scan.foldlM_related (Varied limits) visits mastered mastered' varied ?_
  rintro before ⟨idx, line⟩ after state state' split reached related
  obtain ⟨slave, search⟩ := forced before idx line after state split reached
  exact related.visit (Or.inr ⟨slave, rfl, search⟩)

/-- Forced searches make the whole build independent of the limits. -/
theorem build_of_choiceForced (forced : ChoiceForced builder serverIds source noQuickTable)
    (limits : RoomLimits) :
    build builder serverIds source dest noQuickTable limits =
      build builder serverIds source dest noQuickTable zeroLimits := by
  by_cases checks : Checks builder serverIds source noQuickTable
  · have related : Scan.Related (Varied limits)
        ((prepared builder serverIds source zeroLimits).checkTable (strategy shape))
        ((prepared builder serverIds source limits).checkTable (strategy shape)) := by
      rw [Work.checkTable_eq, Work.checkTable_eq]
      have masters := (prepared_varied builder serverIds source limits).mastersRound
      generalize first : (prepared builder serverIds source zeroLimits).checkRound (strategy shape) 0 =
        left at masters
      generalize (prepared builder serverIds source limits).checkRound (strategy shape) 0 =
        right at masters
      cases masters with
      | error varied => exact .error varied
      | @ok mastered mastered' varied =>
        change Scan.Related _ (mastered.checkRound (strategy shape) 1)
          (mastered'.checkRound (strategy shape) 1)
        rw [checkRound_one, checkRound_one]
        refine visits_related varied (slaveVisits shape) ?_
        intro before idx line after state split reached
        exact ⟨slave_of_split split,
          forced checks mastered state before after idx line first split reached⟩
    rw [build_checked checks, build_checked checks]
    exact (ofPass_same .buildOK (related.imp fun varied => varied.table)).symm
  · exact build_unchecked checks limits

/-! ### Turning a search that is not forced -/

theorem exists_limits (work : Work shape Rooms) (pick server : ServerIdType)
    (turnable : ¬((server.second = work.builder.derived.maxMachineRoomId ↔
        pick.second = work.builder.derived.maxMachineRoomId) ∧
      work.builder.tokensCountInNodeNow.getD pick 0 ≤
        work.builder.tokensCountInNodeNow.getD server 0)) :
    ∃ limits, ∀ limit, 0 ≤ limit →
      limited (vary work limit limits).builder pick ∧
        ¬limited (vary work limit limits).builder server := by
  let count := fun node : ServerIdType => work.builder.tokensCountInNodeNow.getD node 0
  let room := work.builder.derived.maxMachineRoomId
  by_cases inRoom : pick.second = room
  · refine ⟨⟨count pick, 0, count server + 1, 0⟩, fun limit nonneg => ⟨?_, ?_⟩⟩
    · change count pick ≥ (if pick.second = room then count pick else _) ∧
        limit ≥ if _ then (0 : Int) else 0
      rw [if_pos inRoom, ite_self]
      exact ⟨Int.le_refl _, nonneg⟩
    · rintro ⟨enough, -⟩
      change count server ≥ (if server.second = room then count pick else _ + 1) at enough
      split_ifs at enough with sameRoom
      · exact turnable ⟨⟨fun _ => inRoom, fun _ => sameRoom⟩, enough⟩
      · omega
  · refine ⟨⟨count server + 1, 0, count pick, 0⟩, fun limit nonneg => ⟨?_, ?_⟩⟩
    · change count pick ≥ (if pick.second = room then _ else count pick) ∧
        limit ≥ if _ then (0 : Int) else 0
      rw [if_neg inRoom, ite_self]
      exact ⟨Int.le_refl _, nonneg⟩
    · rintro ⟨enough, -⟩
      change count server ≥ (if server.second = room then _ + 1 else count pick) at enough
      split_ifs at enough with otherRoom
      · omega
      · exact turnable ⟨⟨fun wrong => absurd wrong otherRoom, fun wrong => absurd wrong inRoom⟩,
          enough⟩

theorem final_entry {limits : RoomLimits} {mastered state : Work shape Rooms}
    (first : (prepared builder serverIds source limits).checkRound (strategy shape) 0 = .ok mastered)
    (split : slaveVisits shape = before ++ (idx, line) :: after)
    (reached : before.foldlM visitSlave mastered = .ok state)
    (bad : isThisNodeOK state.builder (state.entry line idx) line idx state.table .all true ≠ .nodeOK)
    (found : ((state.invaliadNode line idx).getSuitableNode (strategy shape) line idx
      (state.entry line idx)).first ≠ invalidFlag) :
    (Scan.reached ((prepared builder serverIds source limits).checkTable
        (strategy shape))).table.get line idx =
      (state.invaliadNode line idx).getSuitableNode (strategy shape) line idx
        (state.entry line idx) := by
  have visit : ∃ next, visitSlave state (idx, line) = .ok next ∧ next.table.get line idx =
      (state.invaliadNode line idx).getSuitableNode (strategy shape) line idx
        (state.entry line idx) := by
    have step := Work.checkNode_step (strategy shape) .all idx state line
    change ∃ next, state.checkNode (strategy shape) .all idx line = .ok next ∧ _
    generalize state.checkNode (strategy shape) .all idx line = result at step ⊢
    cases step with
    | accept good => exact absurd good bad
    | swap _ isMaster => exact absurd isMaster (slave_of_split split)
    | replace _ node search _ => exact ⟨_, rfl, (Grid.get_set_self _ _ _ _).trans search.symm⟩
    | giveUp _ search => exact absurd search found
  obtain ⟨next, ran, filled⟩ := visit
  have run : (prepared builder serverIds source limits).checkTable (strategy shape) =
      after.foldlM visitSlave next := by
    rw [Work.checkTable_eq, first]
    change mastered.checkRound (strategy shape) 1 = _
    rw [checkRound_one, split, List.foldlM_append, reached]
    change List.foldlM visitSlave state ((idx, line) :: after) = _
    rw [List.foldlM_cons, ran]
    rfl
  rw [run, entry_kept split, filled]

/-- A search that is not forced, reached by the builds with any limits in the same
state up to the limits, fills its entry differently in two of them. -/
theorem build_differs (checks : Checks builder serverIds source noQuickTable)
    {state : Work shape Rooms}
    (split : slaveVisits shape = before ++ (idx, line) :: after)
    (runs : ∀ limits, ∃ mastered' state',
      (prepared builder serverIds source limits).checkRound (strategy shape) 0 = .ok mastered' ∧
        before.foldlM visitSlave mastered' = .ok state' ∧ Varied limits state state')
    (bad : isThisNodeOK state.builder (state.entry line idx) line idx state.table .all true ≠ .nodeOK)
    (unforced : ¬Forced (state.invaliadNode line idx) line idx (state.entry line idx)) :
    ∃ limits, build builder serverIds source dest noQuickTable limits ≠
      build builder serverIds source dest noQuickTable zeroLimits := by
  have slave := slave_of_split split
  unfold Forced at unforced
  set clean := state.invaliadNode line idx with isClean
  set origin := state.entry line idx with isOrigin
  push Not at unforced
  obtain ⟨unset, place, server, stands, passed, turnable⟩ := unforced
  have pickPasses : clean.passes (strategy shape) line idx .force
      (forcedPick clean line idx origin) = true :=
    forcedPick_passes stands passed
  -- What a build with given limits does at this visit.
  have out : ∀ limits, ∃ limit, 0 ≤ limit ∧
      (∀ search, (vary clean limit limits).getSuitableNode
          (strategy shape) line idx origin = search → search.first ≠ invalidFlag →
        (Scan.reached ((prepared builder serverIds source limits).checkTable
          (strategy shape))).table.get line idx = search) := by
    intro limits
    obtain ⟨mastered', state', first, reached, varied⟩ := runs limits
    obtain ⟨limit, nonneg, rfl⟩ := varied.varied
    refine ⟨limit, nonneg, fun search result found => ?_⟩
    have rejected : isThisNodeOK (vary state limit limits).builder
        ((vary state limit limits).entry line idx) line idx
        (vary state limit limits).table .all true ≠ .nodeOK := by
      rw [isThisNodeOK_vary state limit limits (Or.inr (Or.inl rfl))]
      exact bad
    rw [← result, ← invaliadNode_vary] at found ⊢
    exact final_entry first split reached rejected found
  obtain ⟨limits, turns⟩ := exists_limits clean
    (forcedPick clean line idx origin) server
    (fun both => absurd both.2 (Int.not_le.mpr (turnable both.1)))
  refine ⟨limits, fun same => ?_⟩
  obtain ⟨zeroCount, zeroNonneg, zeroEntry⟩ := out zeroLimits
  obtain ⟨count, nonneg, entry⟩ := out limits
  -- Limits 0 stop everything in the middle, so the forced pick is taken.
  have zeroSearch : (vary clean zeroCount zeroLimits).getSuitableNode
      (strategy shape) line idx origin =
        forcedPick clean line idx origin := by
    rw [← forcedPick_vary _ zeroCount zeroLimits]
    refine search_forced slave (by rw [strictPick_vary]; exact unset) ?_
    intro shelf other _ through
    refine absurd ?_ ((passes_relaxed slave (Or.inr rfl)).mp through).2
    obtain ⟨_, _, _, _, varied⟩ := runs zeroLimits
    have counted := (varied.invaliad line idx).nonneg other
    constructor
    · change clean.builder.tokensCountInNodeNow.getD other 0 ≥
        if other.second = _ then (0 : Int) else 0
      rw [ite_self]
      exact counted
    · change zeroCount ≥ if other.second = _ then (0 : Int) else 0
      rw [ite_self]
      exact zeroNonneg
  -- The chosen limits stop the forced pick in the middle and let the other server through.
  have ended : (vary clean count limits).passes (strategy shape) line idx
      .base (forcedPick (vary clean count limits) line idx
        origin) = false := by
    rw [forcedPick_vary]
    refine Bool.eq_false_iff.mpr (fun through => ?_)
    exact ((passes_relaxed slave (Or.inr rfl)).mp through).2 (turns count nonneg).1
  have through : (vary clean count limits).passes (strategy shape) line idx
      .base server = true := by
    refine (passes_relaxed slave (Or.inr rfl)).mpr ⟨?_, (turns count nonneg).2⟩
    rw [passes_vary _ count limits (Or.inr (Or.inr rfl))]
    exact passed
  obtain ⟨found, deviates⟩ := search_deviates slave (by rw [strictPick_vary]; exact unset) ended
    stands through
  have zeroTable := zeroEntry _ zeroSearch (passes_real pickPasses)
  have table := entry _ rfl found
  rw [build_checked checks, build_checked checks, TableBuilder.Rebuilt.ofPass_work,
    TableBuilder.Rebuilt.ofPass_work] at same
  have sameEntry := congrArg (fun result => Grid.get result.2 line idx) (Option.some.inj same)
  rw [forcedPick_vary] at deviates
  exact deviates (table.symm.trans (sameEntry.trans zeroTable))

/-- The build depends on its inputs alone exactly when every search is forced. -/
theorem build_independent_iff :
    (∀ limits limits', build builder serverIds source dest noQuickTable limits =
        build builder serverIds source dest noQuickTable limits') ↔
      ChoiceForced builder serverIds source noQuickTable := by
  constructor
  · intro same checks mastered state before
    -- Induction over the visits before: those are forced, so all builds get here.
    induction length : before.length using Nat.strong_induction_on generalizing before state with
    | _ count ih =>
      intro after idx line first split reached bad
      by_contra unforced
      have runs : ∀ limits, ∃ mastered' state',
          (prepared builder serverIds source limits).checkRound (strategy shape) 0 =
              .ok mastered' ∧
            before.foldlM visitSlave mastered' = .ok state' ∧ Varied limits state state' := by
        intro limits
        have masters := (prepared_varied builder serverIds source limits).mastersRound
        rw [first] at masters
        generalize (prepared builder serverIds source limits).checkRound (strategy shape) 0 =
          right at masters ⊢
        cases masters with
        | @ok _ mastered' varied =>
          have related := visits_related varied before (by
            intro earlier bucket copy later inner cut got
            have whole : slaveVisits shape =
                earlier ++ (bucket, copy) :: (later ++ (idx, line) :: after) := by
              rw [split, cut, List.append_assoc]
              rfl
            have shorter : earlier.length < count := by
              rw [← length, cut, List.length_append, List.length_cons]
              omega
            exact ⟨slave_of_split whole,
              ih earlier.length shorter inner earlier rfl _ bucket copy first whole got⟩)
          rw [reached] at related
          generalize last : before.foldlM visitSlave mastered' = result at related
          cases related with
          | @ok _ state' later => exact ⟨mastered', state', rfl, last, later⟩
      obtain ⟨limits, differs⟩ := build_differs checks split runs bad unforced
      exact differs (same limits zeroLimits)
  · intro forced limits limits'
    exact (build_of_choiceForced forced limits).trans (build_of_choiceForced forced limits').symm

end Builds

def unevenRooms : TableBuilder Rooms :=
  (TableBuilder.construct 0 ⟨false, .finite (3 / 5), 0, 0, 0, 0, 0, 0⟩).setPosMask 1

def unevenSource : HashTable sampleShape :=
  Grid.ofFn (fun line idx =>
    if line.val = 0 then (if idx.val = 0 then noNode else nodeOf 1 1)
    else (if idx.val = 0 then nodeOf 1 1 else nodeOf 1 3))

/-- With limits that no server reaches the second copy of bucket 0 stays on server 1. With
limits that a single copy reaches it moves to server 3. -/
theorem build_depends_on_limits :
    (build unevenRooms [1, 2, 3] unevenSource unevenSource true ⟨100, 100, 100, 100⟩).map
        (fun result => (result.1, result.2.get ⟨1, by decide⟩ ⟨0, by decide⟩)) =
          some (.buildOK, nodeOf 1 1) ∧
      (build unevenRooms [1, 2, 3] unevenSource unevenSource true ⟨1, -100, 1, -100⟩).map
        (fun result => (result.1, result.2.get ⟨1, by decide⟩ ⟨0, by decide⟩)) =
          some (.buildOK, nodeOf 1 3) := by
  decide +kernel

end Tair.ConfigServer.TableBuilder2
