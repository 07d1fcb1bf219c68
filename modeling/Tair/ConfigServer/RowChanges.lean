/-
What a build can do to a bucket. One whose copies are on different available servers is left as it
is, or gets another master, or a server that it did not have; its slaves are never only permuted.
Any other has a hole in its quick table and gets a slave which that does not have.
-/

import Tair.ConfigServer.MasterBalance
import Tair.ConfigServer.QuickTable

namespace Tair.ConfigServer

open Function Std Tair.Library

variable {shape : Shape} {δ : Type}

/-- The bucket has another master than before, or a slave on a server that had
no copy. -/
def Moved (source row : shape.Line → ServerIdType) : Prop :=
  row shape.master ≠ source shape.master ∨
    ∃ line, line ≠ shape.master ∧ ∀ other, row line ≠ source other

/-- A strategy that gives up an available master only above its quota. -/
structure Strategy.KeepsMasters (strategy : Strategy shape δ) : Prop where
  overQuota : ∀ {builder node idx table}, builder.isNodeAvailble node = true →
    strategy.isThisNodeOK builder node shape.master idx table .base true ≠ .nodeOK →
      builder.mtokens.capable node < builder.mtokens.count node

/-! ### The two rounds -/

namespace Work

variable {strategy : Strategy shape δ}

private theorem mcount_cleared (work : Work shape δ) (idx : shape.Bucket)
    (alive : work.available (work.row idx shape.master) = true) :
    (work.invaliadNode shape.master idx).builder.mtokens.count (work.row idx shape.master) =
      work.builder.mtokens.count (work.row idx shape.master) - 1 := by
  have counted : (work.invaliadNode shape.master idx).builder.mtokens =
      work.builder.mtokens.changeTokensCountInNode (work.row idx shape.master) true := by
    have here : work.available (work.entry shape.master idx) = true := alive
    unfold invaliadNode changeTokens
    simp only [if_pos here]
    rfl
  rw [counted, TokenLedger.count_change, if_pos rfl, if_pos rfl]

theorem master_stays_or_changes (caps : strategy.CapsMasters) (keeps : strategy.KeepsMasters)
    {work next : Work shape δ} {idx : shape.Bucket} (placed : Placed work.available (work.row idx))
    (ran : work.checkNode strategy .base idx shape.master = .ok next) :
    next.row idx = work.row idx ∨ next.row idx shape.master ≠ work.row idx shape.master := by
  have step := checkNode_step strategy .base idx work shape.master
  rw [ran] at step
  cases step with
  | accept good => exact Or.inl rfl
  | swap bad isMaster other slave alive room =>
    right
    rw [work.master_swapMaster idx slave]
    intro same
    exact placed.distinct other shape.master slave (congrArg ServerIdType.first same)
  | replace bad node search found =>
    right
    rw [row_replace, update_self]
    intro same
    obtain ⟨level, good⟩ := Strategy.Placing.search_passes search found
    have below := caps.below good
    have tooMany : work.builder.mtokens.capable (work.row idx shape.master) <
        work.builder.mtokens.count (work.row idx shape.master) :=
      keeps.overQuota (placed.alive shape.master) bad
    have quota : (work.invaliadNode shape.master idx).builder.mtokens.capable
        (work.row idx shape.master) = work.builder.mtokens.capable (work.row idx shape.master) :=
      congrArg (fun setup : Setup δ =>
        setup.masterServerCapable.getD (work.row idx shape.master) 0)
        (setup_invaliadNode work shape.master idx)
    rw [same, mcount_cleared work idx (placed.alive shape.master), quota] at below
    simp only [Bool.false_eq_true, if_false] at below
    omega

/-- A visit of a slave leaves the row, or fills the line with a server that is on
no line of the row. -/
theorem slave_stays_or_changes {Spread : δ → (shape.Line → ServerIdType) → Prop}
    (placing : strategy.Placing Spread) {work next : Work shape δ} {idx : shape.Bucket}
    {line : shape.Line} (slave : line ≠ shape.master) {consider : Consider}
    (ran : work.checkNode strategy consider idx line = .ok next) :
    next.row idx = work.row idx ∨
      ∃ node, next.row idx = update (work.row idx) line node ∧
        ∀ other, node ≠ work.row idx other := by
  have step := checkNode_step strategy consider idx work line
  rw [ran] at step
  cases step with
  | accept good => exact Or.inl rfl
  | swap bad isMaster => exact absurd isMaster slave
  | replace bad node search found =>
    rw [row_replace]
    by_cases back : node = work.row idx line
    · left
      rw [back]
      exact update_eq_self line _
    · right
      refine ⟨node, rfl, fun other same => ?_⟩
      by_cases here : other = line
      · rw [here] at same
        exact back same
      · obtain ⟨level, good⟩ := Strategy.Placing.search_passes search found
        have apart := placing.apart slave good other here
        rw [table_invaliadNode, Grid.get_set_of_line_ne _ _ _ _ here] at apart
        exact apart (congrArg ServerIdType.first same).symm

private theorem slaves_stay_or_change {Spread : δ → (shape.Line → ServerIdType) → Prop}
    (placing : strategy.Placing Spread) {work next : Work shape δ} {idx : shape.Bucket}
    (ran : work.checkBucket strategy 1 idx = .ok next) :
    next.row idx = work.row idx ∨
      ∃ line, line ≠ shape.master ∧ ∀ other, next.row idx line ≠ work.row idx other := by
  unfold checkBucket at ran
  rw [Shape.visited_one] at ran
  have walked := Scan.foldlM_ok
    (fun visited (state : Work shape δ) => state.row idx = work.row idx ∨
      ∃ line ∈ visited, ∀ other, state.row idx line ≠ work.row idx other)
    shape.slaves work (Or.inl rfl) ?_ ran
  · rcases walked with same | ⟨line, member, new⟩
    · exact Or.inl same
    · exact Or.inr ⟨line, Shape.mem_slaves.mp member, new⟩
  · intro before line after state more split kept visit
    have slave : line ≠ shape.master := by
      apply Shape.mem_slaves.mp
      rw [split]
      exact List.mem_append_right before List.mem_cons_self
    have fresh : line ∉ before := by
      have distinct : shape.slaves.Nodup := (List.nodup_finRange _).filter _
      rw [split, List.nodup_append] at distinct
      exact fun member => distinct.2.2 line member line List.mem_cons_self rfl
    rcases slave_stays_or_changes placing slave visit with same | ⟨node, result, new⟩
    · rw [same]
      rcases kept with start | ⟨prior, member, foreign⟩
      · exact Or.inl start
      · exact Or.inr ⟨prior, List.mem_append_left _ member, foreign⟩
    · right
      rcases kept with start | ⟨prior, member, foreign⟩
      · refine ⟨line, List.mem_append_right before List.mem_cons_self, fun other => ?_⟩
        rw [result, update_self, ← start]
        exact new other
      · refine ⟨prior, List.mem_append_left _ member, fun other => ?_⟩
        have apart : prior ≠ line := fun same => fresh (same ▸ member)
        rw [result, update_of_ne apart]
        exact foreign other

theorem checkTable_moves {Spread : δ → (shape.Line → ServerIdType) → Prop}
    (placing : strategy.Placing Spread) (caps : strategy.CapsMasters)
    (keeps : strategy.KeepsMasters) {work final : Work shape δ}
    (done : work.checkTable strategy = .ok final) {idx : shape.Bucket}
    (placed : Placed work.available (work.row idx)) :
    final.row idx = work.row idx ∨ Moved (work.row idx) (final.row idx) := by
  obtain ⟨mastered, first, second⟩ := checkTable_ok done
  have masters : mastered.row idx = work.row idx ∨
      mastered.row idx shape.master ≠ work.row idx shape.master := by
    refine (checkRound_rows work.setup (fun bucket row => row = work.row bucket)
      (fun bucket row => Placed work.available (work.row bucket) →
        row = work.row bucket ∨ row shape.master ≠ work.row bucket shape.master)
      ?_ rfl (fun _ => rfl) first).2 idx placed
    intro state next bucket setup start ran inOrder
    rw [← start, ← available_of_setup setup] at inOrder
    rw [← start]
    exact master_stays_or_changes caps keeps inOrder (mastersBucket_ok ran)
  have slaves : final.row idx = mastered.row idx ∨
      ∃ line, line ≠ shape.master ∧ ∀ other, final.row idx line ≠ mastered.row idx other := by
    refine (checkRound_rows mastered.setup (fun bucket row => row = mastered.row bucket)
      (fun bucket row => row = mastered.row bucket ∨
        ∃ line, line ≠ shape.master ∧ ∀ other, row line ≠ mastered.row bucket other)
      ?_ rfl (fun _ => rfl) second).2 idx
    intro state next bucket _ start ran
    rw [← start]
    exact slaves_stay_or_change placing ran
  rcases masters with same | changed
  · rw [same] at slaves
    rcases slaves with still | ⟨line, slave, new⟩
    · exact Or.inl still
    · exact Or.inr (Or.inr ⟨line, slave, new⟩)
  · refine Or.inr (Or.inl ?_)
    rw [slavesRound_keeps_masters second idx]
    exact changed

end Work

/-! ### The quick table -/

theorem source_of_placed_quick {available : ServerIdType → Bool}
    {source row : shape.Line → ServerIdType} (promoted : Promoted available source row)
    (unset : ∀ position, available ⟨invalidFlag, position⟩ = false)
    (placed : Placed available (swept available row)) : swept available row = source := by
  have filled : ∀ line, available (swept available row line) = true := placed.alive
  have hole : available noNode = false := unset 0
  cases promoted with
  | stays alive =>
    funext line
    have here := filled line
    unfold swept at here ⊢
    by_cases clean : line ≠ shape.master ∧ available (source line) = false
    · rw [if_pos clean, hole] at here
      cases here
    · rw [if_neg clean]
  | swaps dead line slave alive =>
    have here := filled line
    unfold swept at here
    rw [update_self, if_pos ⟨slave, unset _⟩, hole] at here
    cases here

theorem placed_of_covers {available : ServerIdType → Bool} {row cover : shape.Line → ServerIdType}
    (placed : Placed available row) (covers : ∀ line, ∃ other, row line = cover other) :
    Placed available cover := by
  choose place same using covers
  have injective : Function.Injective place := by
    intro line other equal
    by_contra ne
    apply placed.distinct line other ne
    rw [same line, same other, equal]
  have surjective : Function.Surjective place := Finite.injective_iff_surjective.mp injective
  constructor
  · intro copy
    obtain ⟨line, rfl⟩ := surjective copy
    rw [← same line]
    exact placed.alive line
  · intro copy other ne
    obtain ⟨line, rfl⟩ := surjective copy
    obtain ⟨line', rfl⟩ := surjective other
    rw [← same line, ← same line']
    exact placed.distinct line line' (fun equal => ne (congrArg place equal))

/-- When the new row has the master and only servers of the quick row, it is the
quick row. -/
theorem row_eq_quick_of_covers {available : ServerIdType → Bool}
    {source row result : shape.Line → ServerIdType} (promoted : Promoted available source row)
    (unset : ∀ position, available ⟨invalidFlag, position⟩ = false)
    (placed : Placed available result)
    (moves : Placed available source → result = source ∨ Moved source result)
    (master : result shape.master = swept available row shape.master)
    (covers : ∀ line, ∃ other, result line = swept available row other) :
    result = swept available row := by
  have inOrder := placed_of_covers placed covers
  have same := source_of_placed_quick promoted unset inOrder
  rw [same] at inOrder master covers ⊢
  rcases moves inOrder with still | changed | ⟨line, slave, new⟩
  · exact still
  · exact absurd master changed
  · obtain ⟨other, taken⟩ := covers line
    exact absurd taken (new other)

namespace TableBuilder1

theorem keepsMasters (shape : Shape) : (strategy shape).KeepsMasters where
  overQuota := by
    intro builder node idx table alive bad
    by_contra within
    apply bad
    refine TableBuilder.nodeStatus_nodeOK.mpr ⟨alive, ?_, Or.inl ⟨rfl, rfl⟩⟩
    rw [TableBuilder.tokenStatus_master, if_pos rfl]
    omega

end TableBuilder1

end Tair.ConfigServer
