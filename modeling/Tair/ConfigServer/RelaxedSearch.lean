/-
The relaxed levels of a search of the second strategy, where the limits it never sets are read. A
search that succeeds at the first level does not see them. One that goes on returns what the last
level would return, unless the limits stop that server and let another one through.
-/

import Tair.ConfigServer.BuilderSteps
import Tair.ConfigServer.TableBuilder2

namespace Tair.ConfigServer

open Std Tair.Library

variable {shape : Shape}

/-! ### Walks with a stricter test -/

theorem scanServers_none {passes : ServerIdType → Bool} {servers : List ServerIdType}
    (none : ∀ server ∈ servers, passes server = false) (origin fits : ServerIdType) :
    scanServers passes origin servers fits = fits := by
  rcases scanServers_cases passes origin servers fits with
    ⟨same, -⟩ | ⟨server, member, passed, -⟩
  · exact same
  · rw [none server member] at passed
    cases passed

theorem scanServers_stricter {strict loose : ServerIdType → Bool}
    (weaker : ∀ server, strict server = true → loose server = true)
    (origin : ServerIdType) (servers : List ServerIdType) (fits suitable' : ServerIdType)
    (found : ∃ server ∈ servers, loose server = true)
    (agrees : strict (scanServers loose origin servers fits) = true) :
    scanServers strict origin servers suitable' =
      scanServers loose origin servers fits := by
  induction servers generalizing fits suitable' with
  | nil =>
    obtain ⟨server, member, -⟩ := found
    cases member
  | cons head rest ih =>
    unfold scanServers at agrees ⊢
    by_cases good : loose head = true
    · simp only [if_pos good] at agrees ⊢
      by_cases original : head.first = origin.first
      · simp only [if_pos original] at agrees ⊢
        rw [if_pos agrees]
      · simp only [if_neg original] at agrees ⊢
        by_cases later : ∃ server ∈ rest, loose server = true
        · by_cases kept : strict head = true
          · rw [if_pos kept]
            exact ih head head later agrees
          · rw [if_neg kept]
            exact ih head suitable' later agrees
        · -- The head is the last server that passes the loose test.
          have noneLoose : ∀ server ∈ rest, loose server = false := by
            intro server member
            exact Bool.eq_false_iff.mpr (fun passed => later ⟨server, member, passed⟩)
          have noneStrict : ∀ server ∈ rest, strict server = false := by
            intro server member
            exact Bool.eq_false_iff.mpr
              (fun passed => later ⟨server, member, weaker server passed⟩)
          rw [scanServers_none noneLoose] at agrees ⊢
          rw [if_pos agrees, scanServers_none noneStrict]
    · have bad : ¬strict head = true := fun passed => good (weaker head passed)
      simp only [if_neg good] at agrees ⊢
      rw [if_neg bad]
      refine ih fits suitable' ?_ agrees
      obtain ⟨server, member, passed⟩ := found
      rcases List.mem_cons.mp member with same | later
      · rw [same] at passed
        exact absurd passed good
      · exact ⟨server, later, passed⟩

/-- The walk over the shelves at any level and under a stricter test finds what
the unrestricted walk finds, or nothing. -/
theorem scanShelves_stricter {strict loose : ServerIdType → Bool}
    (weaker : ∀ server, strict server = true → loose server = true)
    (real : ∀ server, loose server = true → server.first ≠ invalidFlag) (level : Consider)
    (origin : ServerIdType) (shelves : List (Int × ServerList)) (used : Nat)
    {fits : ServerIdType} (unset : fits.first = invalidFlag)
    (agrees : strict (scanShelves .force loose origin shelves 0 fits) = true) :
    scanShelves level strict origin shelves used fits = fits ∨
      scanShelves level strict origin shelves used fits =
        scanShelves .force loose origin shelves 0 fits := by
  induction shelves generalizing used with
  | nil => exact Or.inl rfl
  | cons head rest ih =>
    have start : 0 < Consider.force.rank + 1 ∧ fits.first = invalidFlag :=
      ⟨Nat.succ_pos _, unset⟩
    have free : ¬Consider.force.rank < Consider.base.rank := by decide
    have settled : ∀ (level : Consider) (passes : ServerIdType → Bool) (used : Nat)
        {server : ServerIdType}, server.first ≠ invalidFlag →
        scanShelves level passes origin rest used server = server := by
      intro level passes used server isReal
      cases rest with
      | nil => rfl
      | cons next more =>
        unfold scanShelves
        rw [if_neg (fun both => isReal both.2)]
    unfold scanShelves at agrees ⊢
    rw [if_pos start, if_neg free] at agrees ⊢
    by_cases walks : used < level.rank + 1 ∧ fits.first = invalidFlag
    · rw [if_pos walks]
      rcases scanServers_cases loose origin head.2.toList fits with
        ⟨same, noneLoose⟩ | ⟨server, member, passed, result⟩
      · have noneStrict : ∀ server ∈ head.2.toList, strict server = false := by
          intro server member
          refine Bool.eq_false_iff.mpr (fun passed => ?_)
          have wrong := weaker server passed
          rw [noneLoose server member] at wrong
          cases wrong
        rw [same] at agrees ⊢
        rw [scanServers_none noneStrict]
        exact ih _ agrees
      · have isReal := real server passed
        rw [result, settled _ _ _ isReal] at agrees ⊢
        have same := scanServers_stricter weaker origin head.2.toList fits fits
          ⟨server, member, passed⟩ (by rw [result]; exact agrees)
        rw [same, result, settled _ _ _ isReal]
        exact Or.inr rfl
    · rw [if_neg walks]
      exact Or.inl rfl

namespace TableBuilder2

/-! ### One search for a slave -/

def strictPick (work : Work shape Rooms) (line : shape.Line) (idx : shape.Bucket)
    (originalNode : ServerIdType) : ServerIdType :=
  scanShelves .all (work.passes (strategy shape) line idx .all) originalNode
    (work.ledgerOf line).candidateNode.toList 0 noNode

def forcedPick (work : Work shape Rooms) (line : shape.Line) (idx : shape.Bucket)
    (originalNode : ServerIdType) : ServerIdType :=
  scanShelves .force (work.passes (strategy shape) line idx .force) originalNode
    (work.ledgerOf line).candidateNode.toList 0 noNode

section Search

variable {work : Work shape Rooms} {line : shape.Line} {idx : shape.Bucket}

variable {level : Consider} {server origin : ServerIdType}

theorem passes_real (passed : work.passes (strategy shape) line idx level server = true) :
    server.first ≠ invalidFlag :=
  (TableBuilder.isNodeAvailble_iff.mp
    (TableBuilder.nodeStatus_nodeOK.mp (of_decide_eq_true passed)).1).1

def limited (builder : TableBuilder Rooms) (node : ServerIdType) : Prop :=
  builder.tokensCountInNodeNow.getD node 0 ≥ getTokensPerNode builder node ∧
    builder.maxCountNow ≥ getTokensMaxCount builder node

theorem passes_force (slave : line ≠ shape.master) :
    work.passes (strategy shape) line idx .force server = true ↔
      work.available server = true ∧
        rowStatus work.builder.derived work.table server line idx = .nodeOK := by
  unfold Work.passes
  rw [decide_eq_true_eq]
  refine TableBuilder.nodeStatus_nodeOK.trans ?_
  rw [TableBuilder.tokenStatus_force _ _ slave]
  simp [slave, Work.available]

theorem passes_relaxed (slave : line ≠ shape.master) (middle : level = .pos ∨ level = .base) :
    work.passes (strategy shape) line idx level server = true ↔
      work.passes (strategy shape) line idx .force server = true ∧
        ¬limited work.builder server := by
  rw [passes_force slave]
  unfold Work.passes
  rw [decide_eq_true_eq]
  refine TableBuilder.nodeStatus_nodeOK.trans ?_
  have unstopped : work.builder.tokenStatus server line level (if false = true then 1 else 0)
      (getTokensPerNode work.builder server) (getTokensMaxCount work.builder server) = none ↔
        ¬limited work.builder server := by
    unfold TableBuilder.tokenStatus limited
    rw [if_neg slave]
    rcases middle with rfl | rfl
    · simp
    · simp
  rw [unstopped]
  constructor
  · intro both
    refine ⟨⟨both.1, ?_⟩, both.2.1⟩
    rcases both.2.2 with isMaster | good
    · exact absurd isMaster.1 slave
    · exact good
  · intro both
    exact ⟨both.1.1, both.2, Or.inr both.1.2⟩

/-- A search at one level alone. -/
def walk (work : Work shape Rooms) (line : shape.Line) (idx : shape.Bucket)
    (originalNode : ServerIdType) (level : Consider) : ServerIdType :=
  scanShelves level (work.passes (strategy shape) line idx level) originalNode
    (work.ledgerOf line).candidateNode.toList 0 noNode

theorem searchLevel_unset :
    work.searchLevel (strategy shape) line idx origin noNode level =
      walk work line idx origin level :=
  if_pos rfl

theorem walk_cases : walk work line idx origin level = noNode ∨
    ∃ place, walk work line idx origin level ∈
        ShelfIndex.shelf (work.ledgerOf line).candidateNode place ∧
      work.passes (strategy shape) line idx level (walk work line idx origin level) = true := by
  unfold walk
  rcases scanShelves_cases level (work.passes (strategy shape) line idx level) origin
      (work.ledgerOf line).candidateNode.toList 0 noNode with
    nothing | ⟨⟨place, standing⟩, met, server, inside, passed, result⟩
  · exact .inl nothing
  · refine .inr ⟨place, ?_, result.symm ▸ passed⟩
    rw [result, ShelfIndex.shelf_of_mem_toList met]
    exact TreeSet.mem_toList.mp inside

theorem walk_unset (unset : (walk work line idx origin level).first = invalidFlag) :
    walk work line idx origin level = noNode :=
  walk_cases.resolve_right fun ⟨_, _, passed⟩ => passes_real passed unset

/-- From the third level on a walk does not miss a server that passes. -/
theorem walk_passes (origin : ServerIdType) (relaxed : Consider.base.rank ≤ level.rank) {place : Int}
    (stands : server ∈ ShelfIndex.shelf (work.ledgerOf line).candidateNode place)
    (passed : work.passes (strategy shape) line idx level server = true) :
    work.passes (strategy shape) line idx level (walk work line idx origin level) = true := by
  have complete : (walk work line idx origin level).first ≠ invalidFlag :=
    scanShelves_complete origin relaxed (fun _ => passes_real) _ noNode
      (ShelfIndex.mem_toList_of_mem_shelf stands) (TreeSet.mem_toList.mpr stands) passed
  rcases walk_cases with nothing | ⟨_, _, good⟩
  · rw [nothing] at complete
    exact absurd rfl complete
  · exact good

theorem getSuitableNode_levels (origin : ServerIdType) :
    work.getSuitableNode (strategy shape) line idx origin =
      work.searchLevel (strategy shape) line idx origin
        (work.searchLevel (strategy shape) line idx origin
          (work.searchLevel (strategy shape) line idx origin
            (strictPick work line idx origin) .pos) .base) .force := by
  unfold Work.getSuitableNode Consider.levels
  rw [List.foldl_cons, List.foldl_cons, List.foldl_cons, List.foldl_cons, List.foldl_nil,
    searchLevel_unset]
  rfl

theorem searchLevel_found {fits : ServerIdType} (found : fits.first ≠ invalidFlag) :
    work.searchLevel (strategy shape) line idx origin fits level = fits := by
  unfold Work.searchLevel
  rw [if_neg found]

/-- The forced pick is returned when the limits let it through, or let nothing
through at all. -/
theorem search_forced (slave : line ≠ shape.master)
    (unset : (strictPick work line idx origin).first = invalidFlag)
    (agrees : ∀ place server, server ∈ ShelfIndex.shelf (work.ledgerOf line).candidateNode place →
      work.passes (strategy shape) line idx .base server = true →
      work.passes (strategy shape) line idx .base (forcedPick work line idx origin) = true) :
    work.getSuitableNode (strategy shape) line idx origin =
      forcedPick work line idx origin := by
  have strict : strictPick work line idx origin = noNode := walk_unset unset
  rw [getSuitableNode_levels, strict, searchLevel_unset]
  by_cases some : ∃ place server, server ∈ ShelfIndex.shelf (work.ledgerOf line).candidateNode place ∧
      work.passes (strategy shape) line idx .base server = true
  · obtain ⟨place, server, stands, passed⟩ := some
    have through := agrees place server stands passed
    have isReal := passes_real through
    have either (level : Consider) (middle : level = .pos ∨ level = .base) :
        walk work line idx origin level = noNode ∨
          walk work line idx origin level = forcedPick work line idx origin := by
      have same : work.passes (strategy shape) line idx level =
          work.passes (strategy shape) line idx .base := by
        funext server
        rw [Bool.eq_iff_iff, passes_relaxed slave middle, passes_relaxed slave (Or.inr rfl)]
      unfold walk
      rw [same]
      exact scanShelves_stricter (fun _ good => ((passes_relaxed slave (Or.inr rfl)).mp good).1)
        (fun _ => passes_real) level origin _ 0 rfl through
    rcases either .pos (Or.inl rfl) with nothing | pick
    · rw [nothing, searchLevel_unset]
      rcases either .base (Or.inr rfl) with nothing | pick
      · have complete := passes_real (walk_passes origin (Nat.le_refl _) stands passed)
        rw [nothing] at complete
        exact absurd rfl complete
      · rw [pick, searchLevel_found isReal]
    · rw [pick, searchLevel_found isReal, searchLevel_found isReal]
  · -- Nothing passes in the middle, so those two walks come back empty.
    have empty (level : Consider) (middle : level = .pos ∨ level = .base) :
        walk work line idx origin level = noNode := by
      refine walk_cases.resolve_right fun ⟨place, stands, passed⟩ => some ⟨place, _, stands, ?_⟩
      exact (passes_relaxed slave (Or.inr rfl)).mpr ((passes_relaxed slave middle).mp passed)
    rw [empty .pos (Or.inl rfl), searchLevel_unset, empty .base (Or.inr rfl), searchLevel_unset]
    rfl

/-- When the limits stop the forced pick and let another server through, the
search returns another server. -/
theorem search_deviates (slave : line ≠ shape.master)
    (unset : (strictPick work line idx origin).first = invalidFlag)
    (ended : work.passes (strategy shape) line idx .base (forcedPick work line idx origin) =
      false) {place : Int}
    (stands : server ∈ ShelfIndex.shelf (work.ledgerOf line).candidateNode place)
    (passed : work.passes (strategy shape) line idx .base server = true) :
    (work.getSuitableNode (strategy shape) line idx origin).first ≠ invalidFlag ∧
      work.getSuitableNode (strategy shape) line idx origin ≠
        forcedPick work line idx origin := by
  have strict : strictPick work line idx origin = noNode := walk_unset unset
  suffices through : work.passes (strategy shape) line idx .base
      (work.getSuitableNode (strategy shape) line idx origin) = true by
    refine ⟨passes_real through, fun same => ?_⟩
    rw [same, ended] at through
    cases through
  rw [getSuitableNode_levels, strict, searchLevel_unset]
  rcases walk_cases with nothing | ⟨_, _, good⟩
  · have through := walk_passes origin (Nat.le_refl _) stands passed
    rw [nothing, searchLevel_unset, searchLevel_found (passes_real through)]
    exact through
  · rw [searchLevel_found (passes_real good), searchLevel_found (passes_real good)]
    exact (passes_relaxed slave (Or.inr rfl)).mpr ((passes_relaxed slave (Or.inl rfl)).mp good)

end Search

/-! ### Two builders that differ in the limits -/

structure RoomLimits where
  mtokensPerNodeMin : Int
  mtokensPerNodeMaxCount : Int
  otokensPerNodeMin : Int
  otokensPerNodeMaxCount : Int

def Rooms.withLimits (rooms : Rooms) (limits : RoomLimits) : Rooms :=
  { rooms with
    mtokensPerNodeMin := limits.mtokensPerNodeMin
    mtokensPerNodeMaxCount := limits.mtokensPerNodeMaxCount
    otokensPerNodeMin := limits.otokensPerNodeMin
    otokensPerNodeMaxCount := limits.otokensPerNodeMaxCount }

def withLimits (builder : TableBuilder Rooms) (limits : RoomLimits) : TableBuilder Rooms :=
  { builder with derived := builder.derived.withLimits limits }

def vary (work : Work shape Rooms) (maxCountNow : Int) (limits : RoomLimits) : Work shape Rooms :=
  { work with
    builder := { work.builder with
      maxCountNow := maxCountNow
      derived := work.builder.derived.withLimits limits } }

section Vary

variable (work : Work shape Rooms) (maxCountNow : Int) (limits : RoomLimits)

theorem invaliadNode_vary (line : shape.Line) (idx : shape.Bucket) :
    (vary work maxCountNow limits).invaliadNode line idx =
      vary (work.invaliadNode line idx) maxCountNow limits := by
  have same : (vary work maxCountNow limits).available
      ((vary work maxCountNow limits).entry line idx) = work.available (work.entry line idx) := rfl
  unfold Work.invaliadNode
  dsimp only
  rw [same]
  by_cases alive : work.available (work.entry line idx) = true
  · simp only [if_pos alive]
    rfl
  · simp only [if_neg alive]
    rfl

theorem changeMasterNode_vary (idx : shape.Bucket) (forceFlag : Bool) :
    (vary work maxCountNow limits).changeMasterNode idx forceFlag =
      (work.changeMasterNode idx forceFlag).map (fun changed => vary changed maxCountNow limits) := by
  have same : (vary work maxCountNow limits).chooseLine idx = work.chooseLine idx := rfl
  unfold Work.changeMasterNode
  rw [same]
  cases work.chooseLine idx with
  | mk line minNodeCount =>
    cases line with
    | none => rfl
    | some line =>
      change (if minNodeCount = -1 then none else if forceFlag = false ∧
          work.builder.mtokens.count (work.entry line idx) ≥
            work.builder.mtokens.capable (work.entry line idx) then none
          else some ((vary work maxCountNow limits).swapMaster idx line)) = Option.map _
        (if minNodeCount = -1 then none else if forceFlag = false ∧
          work.builder.mtokens.count (work.entry line idx) ≥
            work.builder.mtokens.capable (work.entry line idx) then none
          else some (work.swapMaster idx line))
      split_ifs with unset full
      · rfl
      · rfl
      · rfl

theorem isThisNodeOK_vary {line : shape.Line} {level : Consider}
    (blind : line = shape.master ∨ level = .all ∨ level = .force) (node : ServerIdType)
    (idx : shape.Bucket) (nodeInUse : Bool) :
    isThisNodeOK (vary work maxCountNow limits).builder node line idx
        (vary work maxCountNow limits).table level nodeInUse =
      isThisNodeOK work.builder node line idx work.table level nodeInUse := by
  have counters : ∀ (turn least limit tokensMin' maxCount' : Int),
      (vary work maxCountNow limits).builder.tokenStatus node line level turn least limit =
        work.builder.tokenStatus node line level turn tokensMin' maxCount' := by
    intro turn least limit tokensMin' maxCount'
    unfold TableBuilder.tokenStatus
    rcases blind with isMaster | first | last
    · simp only [if_pos isMaster]
      rfl
    · simp only [if_pos first]
      rfl
    · simp [last]
      rfl
  unfold isThisNodeOK TableBuilder.nodeStatus
  rw [counters]
  rfl

theorem passes_vary {line : shape.Line} {level : Consider}
    (blind : line = shape.master ∨ level = .all ∨ level = .force) (idx : shape.Bucket) :
    (vary work maxCountNow limits).passes (strategy shape) line idx level =
      work.passes (strategy shape) line idx level := by
  funext node
  unfold Work.passes
  have same := isThisNodeOK_vary work maxCountNow limits blind node idx false
  change decide (isThisNodeOK _ _ _ _ _ _ _ = _) = decide (isThisNodeOK _ _ _ _ _ _ _ = _)
  rw [same]

theorem strictPick_vary (line : shape.Line) (idx : shape.Bucket) (origin : ServerIdType) :
    strictPick (vary work maxCountNow limits) line idx origin =
      strictPick work line idx origin := by
  unfold strictPick
  rw [passes_vary work maxCountNow limits (Or.inr (Or.inl rfl))]
  rfl

theorem forcedPick_vary (line : shape.Line) (idx : shape.Bucket) (origin : ServerIdType) :
    forcedPick (vary work maxCountNow limits) line idx origin =
      forcedPick work line idx origin := by
  unfold forcedPick
  rw [passes_vary work maxCountNow limits (Or.inr (Or.inr rfl))]
  rfl

theorem search_master_vary (idx : shape.Bucket) (origin : ServerIdType) :
    (vary work maxCountNow limits).getSuitableNode (strategy shape) shape.master idx origin =
      work.getSuitableNode (strategy shape) shape.master idx origin := by
  have level : (vary work maxCountNow limits).searchLevel (strategy shape) shape.master idx
      origin = work.searchLevel (strategy shape) shape.master idx origin := by
    funext fits level
    unfold Work.searchLevel
    rw [passes_vary work maxCountNow limits (Or.inl rfl)]
    rfl
  unfold Work.getSuitableNode
  rw [level]

end Vary

/-! ### When the limits cannot matter -/

/-- A search whose outcome is forced. Once no server fits within the quotas, all
the servers the bucket could take lie in the same room as the forced pick, and
none has fewer entries counted so far. -/
def Forced (work : Work shape Rooms) (line : shape.Line) (idx : shape.Bucket)
    (originalNode : ServerIdType) : Prop :=
  (strictPick work line idx originalNode).first = invalidFlag →
    ∀ place server, server ∈ ShelfIndex.shelf (work.ledgerOf line).candidateNode place →
      work.passes (strategy shape) line idx .force server = true →
      (server.second = work.builder.derived.maxMachineRoomId ↔
          (forcedPick work line idx originalNode).second = work.builder.derived.maxMachineRoomId) ∧
        work.builder.tokensCountInNodeNow.getD (forcedPick work line idx originalNode) 0 ≤
          work.builder.tokensCountInNodeNow.getD server 0

variable {work : Work shape Rooms} {line : shape.Line} {idx : shape.Bucket}
  {origin : ServerIdType}

theorem forced_vary (forced : Forced work line idx origin) (maxCountNow : Int)
    (limits : RoomLimits) : Forced (vary work maxCountNow limits) line idx origin := by
  unfold Forced at forced ⊢
  rw [strictPick_vary, forcedPick_vary, passes_vary work maxCountNow limits (Or.inr (Or.inr rfl))]
  exact forced

/-- A forced pick is a server as soon as the index has one that could be taken. -/
theorem forcedPick_passes {place : Int} {server : ServerIdType}
    (stands : server ∈ ShelfIndex.shelf (work.ledgerOf line).candidateNode place)
    (passed : work.passes (strategy shape) line idx .force server = true) :
    work.passes (strategy shape) line idx .force (forcedPick work line idx origin) = true :=
  walk_passes origin (by decide) stands passed

theorem search_of_forced (slave : line ≠ shape.master) (forced : Forced work line idx origin) :
    work.getSuitableNode (strategy shape) line idx origin =
      if (strictPick work line idx origin).first = invalidFlag then
        forcedPick work line idx origin
      else strictPick work line idx origin := by
  by_cases unset : (strictPick work line idx origin).first = invalidFlag
  · rw [if_pos unset]
    refine search_forced slave unset (fun place server stands passed => ?_)
    obtain ⟨good, unlimited⟩ := (passes_relaxed slave (Or.inr rfl)).mp passed
    obtain ⟨room, fewest⟩ := forced unset place server stands good
    refine (passes_relaxed slave (Or.inr rfl)).mpr ⟨forcedPick_passes stands good, ?_⟩
    have sameMin : getTokensPerNode work.builder (forcedPick work line idx origin) =
        getTokensPerNode work.builder server := if_congr room.symm rfl rfl
    have sameMax : getTokensMaxCount work.builder (forcedPick work line idx origin) =
        getTokensMaxCount work.builder server := if_congr room.symm rfl rfl
    intro ended
    apply unlimited
    unfold limited at ended ⊢
    rw [sameMin, sameMax] at ended
    exact ⟨Int.le_trans ended.1 fewest, ended.2⟩
  · rw [if_neg unset, getSuitableNode_levels, searchLevel_found unset, searchLevel_found unset,
      searchLevel_found unset]

end TableBuilder2

end Tair.ConfigServer
