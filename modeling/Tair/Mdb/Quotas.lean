/-
Areas are kept within their quotas. Rounds over the slabs take the last items of an area until
what it has too much is gone. They get that number as a 32-bit integer.
-/

import Tair.Mdb.PageRelease

namespace Tair.Mdb

open MdbManager Tair.Common Tair.Library

/-! ### Items of one area go -/

structure Trimmed (manager next : MdbManager) (area number bytes : Nat) : Prop where
  size : (next.areaStat area).dataSize.toNat + bytes = (manager.areaStat area).dataSize.toNat
  quota : (next.areaStat area).quota = (manager.areaStat area).quota
  others : ∀ other, other ≠ area → next.areaStat other = manager.areaStat other
  slabsCount : next.slabsCount = manager.slabsCount
  count : next.itemCount + number = manager.itemCount
  stored : ∀ slot, next.Stored slot →
    manager.Stored slot ∧ (next.items slot).body = (manager.items slot).body
  kept : ∀ slot, manager.Stored slot → (manager.items slot).area ≠ area → next.Stored slot

namespace Trimmed

variable {mdb middle next : MdbManager} {area number others bytes more : Nat}

theorem refl (mdb : MdbManager) (area : Nat) : Trimmed mdb mdb area 0 0 :=
  ⟨rfl, rfl, fun _ _ => rfl, rfl, add_zero _, fun _ stored => ⟨stored, rfl⟩,
    fun _ stored _ => stored⟩

theorem trans (first : Trimmed mdb middle area number bytes)
    (second : Trimmed middle next area others more) :
    Trimmed mdb next area (number + others) (bytes + more) where
  size := by
    rw [← first.size, ← second.size]
    omega
  quota := second.quota.trans first.quota
  others other ne := (second.others other ne).trans (first.others other ne)
  slabsCount := second.slabsCount.trans first.slabsCount
  count := by
    rw [← first.count, ← second.count]
    push_cast
    omega
  stored slot stored := by
    obtain ⟨between, body⟩ := second.stored slot stored
    obtain ⟨before, same⟩ := first.stored slot between
    exact ⟨before, body.trans same⟩
  kept slot stored ne := by
    have between := first.kept slot stored ne
    refine second.kept slot between ?_
    rw [MdbItem.area_of_body (first.stored slot between).2]
    exact ne

end Trimmed

namespace Kept

variable {mdb next : MdbManager} {layout : Layout} {slot : Slot} {area : Nat}

section

variable (kept : Kept mdb layout)

include kept

theorem dataSize_eq {live : Finset Slot}
    (members : ∀ slot, slot ∈ live ↔ layout.Live slot) (area : Nat) :
    (mdb.areaStat area).dataSize.toNat = ∑ slot ∈ live with (mdb.items slot).area = area,
      ((mdb.items slot).keyLen + (mdb.items slot).dataLen) := by
  refine @Kept.exact_of_small mdb layout live .dataSize kept members ?_ area
  intro slot member
  obtain ⟨-, keyLen, dataLen⟩ := kept.contained slot ((members slot).mp member)
  change (mdb.items slot).keyLen + (mdb.items slot).dataLen ≤ 2 ^ 21
  omega

theorem exists_live (pos : 0 < (mdb.areaStat area).dataSize.toNat) :
    ∃ slot, layout.Live slot ∧ (mdb.items slot).area = area := by
  obtain ⟨live, members⟩ := kept.live
  rw [kept.dataSize_eq members] at pos
  obtain ⟨slot, member, -⟩ := Finset.exists_ne_zero_of_sum_ne_zero (Nat.ne_of_gt pos)
  obtain ⟨inside, isArea⟩ := Finset.mem_filter.mp member
  exact ⟨slot, (members slot).mp inside, isArea⟩

theorem itemCount_le : mdb.itemCount ≤ 2 ^ 32 := by
  obtain ⟨live, members, count⟩ := kept.intact.1.counted
  have bound := kept.card_le members
  rw [count]
  exact_mod_cast bound

theorem trim (found : layout.Live slot) (removal : mdb.removeItem slot = .ok next) :
    ∃ relaid, Kept next relaid ∧ Trimmed mdb next (mdb.items slot).area 1
      ((mdb.items slot).keyLen + (mdb.items slot).dataLen) := by
  set bytes := (mdb.items slot).keyLen + (mdb.items slot).dataLen
  obtain ⟨relaid, after, removes⟩ := kept.removeItem found removal
  have stats := kept.areaStat_removeItem found removal
  obtain ⟨live, members, count⟩ := kept.intact.1.counted
  obtain ⟨left, leftMembers, leftCount⟩ := after.intact.1.counted
  have erased := live_erase removes members leftMembers
  have member := (members slot).mpr found
  refine ⟨relaid, after, ?_, ?_, ?_, ?_, ?_, ?_, ?_⟩
  · have booked : (next.areaStat (mdb.items slot).area).dataSize =
        (mdb.areaStat (mdb.items slot).area).dataSize - UInt64.ofNat bytes := by
      rw [stats, bookGone, areaStat_modifyAreaStat, if_pos rfl]
    have bound : bytes ≤ (mdb.areaStat (mdb.items slot).area).dataSize.toNat := by
      rw [kept.dataSize_eq members]
      exact Finset.single_le_sum (f := fun other =>
        (mdb.items other).keyLen + (mdb.items other).dataLen) (fun _ _ => Nat.zero_le _)
        (Finset.mem_filter.mpr ⟨member, rfl⟩)
    have weight : (UInt64.ofNat bytes).toNat = bytes :=
      UInt64.toNat_ofNat_of_lt (bound.trans_lt (UInt64.toNat_lt_size _))
    rw [booked, UInt64.toNat_sub_of_le _ _ (UInt64.le_iff_toNat_le.mpr (by rw [weight]; exact bound)),
      weight]
    omega
  · rw [stats, bookGone, areaStat_modifyAreaStat, if_pos rfl]
  · intro other ne
    rw [stats, bookGone, areaStat_modifyAreaStat, if_neg (Ne.symm ne)]
  · exact (Steady.removeItem removal).slabsCount
  · rw [count, leftCount, erased, Finset.card_erase_of_mem member]
    have pos := Finset.card_pos.mpr ⟨slot, member⟩
    omega
  · intro other stored
    obtain ⟨before, body⟩ := removes.shrinks other (after.intact.1.stored_iff.mp stored)
    exact ⟨kept.intact.stored before, body⟩
  · intro other stored ne
    refine after.intact.stored (removes.kept other (kept.intact.1.stored_iff.mp stored) ?_)
    intro same
    rw [same] at ne
    exact ne rfl

/-! ### Rounds over the slabs -/

theorem tail_live {slab : Nat} (nonempty : ((mdb.slabs slab).itemList area).itemTail ≠ 0) :
    layout.Live (slotOf ((mdb.slabs slab).itemList area).itemTail) ∧
      (mdb.items (slotOf ((mdb.slabs slab).itemList area).itemTail)).area = area := by
  have tail : mdb.listTail (slab, area) =
      some (slotOf ((mdb.slabs slab).itemList area).itemTail) := link_of_ne nonempty
  have placed := kept.intact.1.items.threaded.backward.place_first tail
  obtain ⟨isArea, found⟩ := kept.intact.1.settled.live _ slab area placed (by simp)
  exact ⟨found, isArea.symm⟩

theorem ends_of_live (found : layout.Live slot) :
    ∃ slab, slab < mdb.slabsCount ∧
      ¬ (((mdb.slabs slab).itemList (mdb.items slot).area).itemHead = 0 ∨
        ((mdb.slabs slab).itemList (mdb.items slot).area).itemTail = 0) := by
  obtain ⟨slab, onList, owner, -, -⟩ := kept.intact.1.onList found
  have threaded := kept.intact.1.items.threaded
  refine ⟨slab, (kept.intact.1.settled.owned slot.page slab owner).1, ?_⟩
  intro empty
  cases empty with
  | inl noHead => exact threaded.forward.first_ne_none onList (link_eq_none.mpr noHead)
  | inr noTail => exact threaded.backward.first_ne_none onList (link_eq_none.mpr noTail)

end

/-- One round. A later one takes nothing only where there is nothing. -/
theorem quotaRound (firstRound : Bool) (slabs : List Nat) {exceed : Int}
    (kept : Kept mdb layout) (pos : 0 < exceed) :
    ∃ next left relaid number bytes,
      MdbManager.quotaRound area firstRound slabs mdb exceed = .ok (next, left) ∧
      Kept next relaid ∧ Trimmed mdb next area number bytes ∧
      left = exceed - bytes ∧ -2 ^ 21 < left ∧
      (firstRound = false → number = 0 → ∀ slab ∈ slabs,
        ((mdb.slabs slab).itemList area).itemHead = 0 ∨
          ((mdb.slabs slab).itemList area).itemTail = 0) := by
  induction slabs generalizing mdb layout exceed with
  | nil =>
    refine ⟨mdb, exceed, layout, 0, 0, rfl, kept, Trimmed.refl _ area, by simp, by omega, ?_⟩
    intro _ _ slab member
    exact absurd member List.not_mem_nil
  | cons slab rest ih =>
    unfold MdbManager.quotaRound
    dsimp only
    by_cases empty : ((mdb.slabs slab).itemList area).itemHead = 0 ∨
        ((mdb.slabs slab).itemList area).itemTail = 0
    · rw [if_pos empty]
      obtain ⟨next, left, relaid, number, bytes, ran, after, cut, isLeft, bound, nothing⟩ :=
        ih kept pos
      refine ⟨next, left, relaid, number, bytes, ran, after, cut, isLeft, bound, ?_⟩
      intro later none other member
      cases List.mem_cons.mp member with
      | inl same =>
        rw [same]
        exact empty
      | inr among => exact nothing later none other among
    · rw [if_neg empty]
      by_cases spared : ((mdb.slabs slab).itemCount area).toNat < (mdb.slabs slab).perSlab ∧
          firstRound
      · rw [if_pos spared]
        obtain ⟨next, left, relaid, number, bytes, ran, after, cut, isLeft, bound, -⟩ :=
          ih kept pos
        refine ⟨next, left, relaid, number, bytes, ran, after, cut, isLeft, bound, ?_⟩
        intro later
        rw [later] at spared
        cases spared.2
      · obtain ⟨found, isArea⟩ := kept.tail_live (fun noTail => empty (Or.inr noTail))
        obtain ⟨gone, removal⟩ := kept.intact.1.removeItem_ends
          (slotOf ((mdb.slabs slab).itemList area).itemTail)
        obtain ⟨between, keptBetween, one⟩ := kept.trim found removal
        rw [isArea] at one
        obtain ⟨-, keyLen, dataLen⟩ := kept.contained _ found
        rw [if_neg spared, removal]
        dsimp only [bind, Except.bind]
        split
        next enough =>
          refine ⟨gone, _, between, 1, _, rfl, keptBetween, one, rfl, ?_,
            fun _ none => absurd none one_ne_zero⟩
          push_cast
          omega
        next more =>
          obtain ⟨next, left, relaid, number, bytes, ran, after, cut, isLeft, bound, -⟩ :=
            ih keptBetween (not_le.mp more)
          refine ⟨next, left, relaid, 1 + number, _, ran, after, one.trans cut, ?_, bound, ?_⟩
          · rw [isLeft]
            push_cast
            omega
          · intro _ none
            omega

theorem quotaRounds {rounds : Nat} {firstRound : Bool} {exceed : Int}
    (kept : Kept mdb layout) (pos : 0 < exceed)
    (rounded : MdbManager.quotaRounds area rounds firstRound mdb exceed = .ok next) :
    ∃ relaid number bytes, Kept next relaid ∧ Trimmed mdb next area number bytes ∧
      exceed ≤ bytes ∧ bytes < exceed + 2 ^ 21 := by
  induction rounds generalizing mdb layout exceed firstRound with
  | zero => cases rounded
  | succ rounds ih =>
    unfold MdbManager.quotaRounds at rounded
    rw [if_neg (not_le.mpr pos)] at rounded
    obtain ⟨between, left, relaid, number, bytes, round, after, cut, isLeft, bound, -⟩ :=
      kept.quotaRound firstRound (List.range mdb.slabsCount) pos
    rw [round] at rounded
    change MdbManager.quotaRounds area rounds false between left = .ok next at rounded
    by_cases ends : left ≤ 0
    · cases rounds with
      | zero => cases rounded
      | succ rounds =>
        unfold MdbManager.quotaRounds at rounded
        rw [if_pos ends] at rounded
        cases rounded
        exact ⟨relaid, number, bytes, after, cut, by omega, by omega⟩
    · obtain ⟨last, others, more, afterLast, further, enough, few⟩ :=
        ih after (not_le.mp ends) rounded
      refine ⟨last, number + others, bytes + more, afterLast, cut.trans further, ?_, ?_⟩
      · push_cast
        omega
      · push_cast
        omega

/-- The rounds end, as there is more data than must go and each later round takes an item. -/
theorem quotaRounds_ends {rounds : Nat} {firstRound : Bool} {exceed : Int}
    (kept : Kept mdb layout) (enough : exceed ≤ (mdb.areaStat area).dataSize.toNat)
    (many : mdb.itemCount + (if firstRound then 1 else 0) < rounds) :
    ∃ result, MdbManager.quotaRounds area rounds firstRound mdb exceed = .ok result := by
  induction rounds generalizing mdb layout exceed firstRound with
  | zero =>
    obtain ⟨live, -, count⟩ := kept.intact.1.counted
    rw [count] at many
    split_ifs at many <;> omega
  | succ rounds ih =>
    unfold MdbManager.quotaRounds
    split
    · exact ⟨_, rfl⟩
    next more =>
      have pos : 0 < exceed := not_le.mp more
      obtain ⟨between, left, relaid, number, bytes, round, after, cut, isLeft, -, nothing⟩ :=
        kept.quotaRound firstRound (List.range mdb.slabsCount) pos
      rw [round]
      dsimp only [bind, Except.bind]
      have size := cut.size
      have count := cut.count
      refine ih after (by omega) ?_
      cases firstRound with
      | true =>
        rw [if_pos rfl] at many
        rw [if_neg Bool.false_ne_true]
        push_cast at many
        omega
      | false =>
        have some : number ≠ 0 := by
          intro none
          obtain ⟨slot, found, isArea⟩ := @exists_live mdb layout area kept (by omega)
          obtain ⟨slab, inside, listed⟩ := kept.ends_of_live found
          rw [isArea] at listed
          exact listed (nothing rfl none slab (List.mem_range.mpr inside))
        rw [if_neg Bool.false_ne_true] at many ⊢
        push_cast at many
        omega

end Kept

/-! ### Area by area -/

namespace MdbManager

/-- What `check_quota` does for one area. -/
def checkArea (manager : MdbManager) (area : Nat) : Except Fault MdbManager :=
  let stat := manager.areaStat area
  if stat.dataSize = 0 then .ok manager
  else if stat.quota < stat.dataSize then manager.keepAreaQuota area (stat.dataSize - stat.quota)
  else .ok manager

def SmallExcess (manager : MdbManager) (area : Nat) : Prop :=
  (manager.areaStat area).dataSize.toNat < (manager.areaStat area).quota.toNat + 2 ^ 31

end MdbManager

namespace Kept

variable {mdb next : MdbManager} {layout : Layout} {area : Nat}

theorem checkArea_within (within : (mdb.areaStat area).dataSize ≤ (mdb.areaStat area).quota) :
    mdb.checkArea area = .ok mdb := by
  unfold MdbManager.checkArea
  dsimp only
  rw [if_neg (UInt64.not_lt.mpr within), ite_self]

theorem checkArea_exceed (exceed : (mdb.areaStat area).quota < (mdb.areaStat area).dataSize) :
    mdb.checkArea area = mdb.keepAreaQuota area
      ((mdb.areaStat area).dataSize - (mdb.areaStat area).quota) ∧
    ((mdb.areaStat area).dataSize - (mdb.areaStat area).quota).toNat =
      (mdb.areaStat area).dataSize.toNat - (mdb.areaStat area).quota.toNat := by
  have larger := UInt64.lt_iff_toNat_lt.mp exceed
  have real : (mdb.areaStat area).dataSize ≠ 0 := by
    intro zero
    rw [zero] at larger
    exact absurd larger (Nat.not_lt_zero _)
  refine ⟨?_, UInt64.toNat_sub_of_le _ _ (UInt64.le_of_lt exceed)⟩
  unfold MdbManager.checkArea
  dsimp only
  rw [if_neg real, if_pos exceed]

theorem checkArea (kept : Kept mdb layout) (checked : mdb.checkArea area = .ok next) :
    ∃ relaid number bytes, Kept next relaid ∧ Trimmed mdb next area number bytes ∧
      ((next.areaStat area).dataSize ≤ (mdb.areaStat area).quota ↔ mdb.SmallExcess area) ∧
      ((mdb.areaStat area).dataSize ≤ (mdb.areaStat area).quota → next = mdb) := by
  by_cases exceed : (mdb.areaStat area).quota < (mdb.areaStat area).dataSize
  · obtain ⟨isKeep, excess⟩ := checkArea_exceed exceed
    rw [isKeep] at checked
    unfold keepAreaQuota at checked
    dsimp only at checked
    rw [excess] at checked
    obtain ⟨⟨pos, half⟩, rounded⟩ := ok_of_check checked
    obtain ⟨relaid, number, bytes, after, cut, enough, few⟩ :=
      kept.quotaRounds (by exact_mod_cast pos) rounded
    refine ⟨relaid, number, bytes, after, cut, ?_, fun within =>
      absurd exceed (UInt64.not_lt.mpr within)⟩
    have size := cut.size
    have larger := UInt64.lt_iff_toNat_lt.mp exceed
    unfold SmallExcess
    rw [UInt64.le_iff_toNat_le]
    -- an excess of 2 ^ 32 and more loses its upper bits, and no item makes up for them
    constructor
    · intro within
      by_contra large
      omega
    · intro small
      omega
  · have within := UInt64.not_lt.mp exceed
    rw [checkArea_within within] at checked
    cases checked
    have sizes := UInt64.le_iff_toNat_le.mp within
    refine ⟨layout, 0, 0, kept, Trimmed.refl _ area, iff_of_true within ?_, fun _ => rfl⟩
    unfold SmallExcess
    omega

theorem checkArea_ends (kept : Kept mdb layout) (small : mdb.SmallExcess area) :
    ∃ result, mdb.checkArea area = .ok result := by
  by_cases exceed : (mdb.areaStat area).quota < (mdb.areaStat area).dataSize
  · obtain ⟨isKeep, excess⟩ := checkArea_exceed exceed
    have larger := UInt64.lt_iff_toNat_lt.mp exceed
    unfold SmallExcess at small
    rw [isKeep]
    unfold keepAreaQuota check
    dsimp only
    rw [excess, Nat.mod_eq_of_lt (by omega), if_pos (by omega)]
    refine kept.quotaRounds_ends (by omega) ?_
    have count := kept.itemCount_le
    rw [if_pos rfl]
    unfold walkLimit
    push_cast
    omega
  · rw [checkArea_within (UInt64.not_lt.mp exceed)]
    exact ⟨mdb, rfl⟩

end Kept

structure Checked (manager next : MdbManager) (areas : List Nat) : Prop where
  apart : ∀ area, area ∉ areas → next.areaStat area = manager.areaStat area
  within : ∀ area ∈ areas,
    ((next.areaStat area).dataSize ≤ (manager.areaStat area).quota ↔ manager.SmallExcess area)
  stored : ∀ slot, next.Stored slot →
    manager.Stored slot ∧ (next.items slot).body = (manager.items slot).body
  kept : ∀ slot, manager.Stored slot →
    (manager.areaStat (manager.items slot).area).dataSize ≤
      (manager.areaStat (manager.items slot).area).quota → next.Stored slot

namespace Kept

variable {mdb next : MdbManager} {layout : Layout} {areas : List Nat}

theorem checkAreas (kept : Kept mdb layout) (once : areas.Nodup)
    (looped : areas.foldlM MdbManager.checkArea mdb = .ok next) :
    ∃ relaid, Kept next relaid ∧ Checked mdb next areas := by
  induction areas generalizing mdb layout with
  | nil =>
    cases looped
    exact ⟨layout, kept, fun _ _ => rfl, fun _ member => absurd member List.not_mem_nil,
      fun _ stored => ⟨stored, rfl⟩, fun _ stored _ => stored⟩
  | cons area rest ih =>
    rw [List.foldlM_cons] at looped
    obtain ⟨between, one, others⟩ := ok_of_bind looped
    obtain ⟨notIn, restOnce⟩ := List.nodup_cons.mp once
    obtain ⟨middle, number, bytes, keptBetween, cut, within, untouched⟩ := kept.checkArea one
    obtain ⟨relaid, after, checked⟩ := ih keptBetween restOnce others
    refine ⟨relaid, after, ?_, ?_, ?_, ?_⟩
    · intro other outside
      rw [List.mem_cons, not_or] at outside
      rw [checked.apart other outside.2, cut.others other outside.1]
    · intro other member
      by_cases same : other = area
      · rw [same, checked.apart area notIn]
        exact within
      · have among := (List.mem_cons.mp member).resolve_left same
        have later := checked.within other among
        unfold SmallExcess at later ⊢
        rw [cut.others other same] at later
        exact later
    · intro slot stored
      obtain ⟨prior, body⟩ := checked.stored slot stored
      obtain ⟨before, same⟩ := cut.stored slot prior
      exact ⟨before, body.trans same⟩
    · intro slot stored inside
      by_cases same : (mdb.items slot).area = area
      · -- an area within its quota is not touched
        rw [same] at inside
        have isSame := untouched inside
        subst isSame
        refine checked.kept slot stored ?_
        rw [same]
        exact inside
      · have prior := cut.kept slot stored same
        refine checked.kept slot prior ?_
        rw [MdbItem.area_of_body (cut.stored slot prior).2, cut.others _ same]
        exact inside

theorem checkAreas_ends (kept : Kept mdb layout) (once : areas.Nodup)
    (small : ∀ area ∈ areas, mdb.SmallExcess area) :
    ∃ result, areas.foldlM MdbManager.checkArea mdb = .ok result := by
  induction areas generalizing mdb layout with
  | nil => exact ⟨mdb, rfl⟩
  | cons area rest ih =>
    obtain ⟨notIn, restOnce⟩ := List.nodup_cons.mp once
    obtain ⟨between, one⟩ := kept.checkArea_ends (small area List.mem_cons_self)
    obtain ⟨middle, number, bytes, keptBetween, cut, -, -⟩ := kept.checkArea one
    rw [List.foldlM_cons, one]
    refine ih keptBetween restOnce fun other among => ?_
    have ne : other ≠ area := by
      intro same
      rw [same] at among
      exact notIn among
    unfold SmallExcess
    rw [cut.others other ne]
    exact small other (List.mem_cons_of_mem area among)

end Kept

/-- The check ends; every area that had too much is within its quota, and no other area has lost an
item. -/
def QuotasKept (manager : MdbManager) : Prop :=
  ∃ next, manager.checkQuota = .ok next ∧
    (∀ area, area < tairMaxAreaCount →
      (manager.areaStat area).quota < (manager.areaStat area).dataSize →
      (next.areaStat area).dataSize ≤ (manager.areaStat area).quota) ∧
    (∀ slot, next.Stored slot →
      manager.Stored slot ∧ (next.items slot).body = (manager.items slot).body) ∧
    ∀ slot, manager.Stored slot → ¬ next.Stored slot →
      (manager.areaStat (manager.items slot).area).quota <
        (manager.areaStat (manager.items slot).area).dataSize

theorem Kept.quotasKept_iff {mdb : MdbManager} {layout : Layout} (kept : Kept mdb layout) :
    QuotasKept mdb ↔ ∀ area, area < tairMaxAreaCount → mdb.SmallExcess area := by
  have once : (List.range tairMaxAreaCount).Nodup := List.nodup_range
  constructor
  · intro property area inside
    obtain ⟨next, checked, within, -, -⟩ := property
    obtain ⟨-, -, result⟩ := kept.checkAreas once checked
    refine (result.within area (List.mem_range.mpr inside)).mp ?_
    by_cases exceed : (mdb.areaStat area).quota < (mdb.areaStat area).dataSize
    · exact within area inside exceed
    · have enough := UInt64.not_lt.mp exceed
      refine (result.within area (List.mem_range.mpr inside)).mpr ?_
      have sizes := UInt64.le_iff_toNat_le.mp enough
      unfold MdbManager.SmallExcess
      omega
  · intro small
    obtain ⟨next, checked⟩ :=
      kept.checkAreas_ends once fun area member => small area (List.mem_range.mp member)
    obtain ⟨-, -, result⟩ := kept.checkAreas once checked
    refine ⟨next, checked, ?_, result.stored, ?_⟩
    · intro area inside _
      exact (result.within area (List.mem_range.mpr inside)).mpr (small area inside)
    · intro slot stored gone
      by_contra within
      exact gone (result.kept slot stored (UInt64.not_lt.mp within))

def MdbManager.withQuotas (manager : MdbManager) (quotas : Nat → UInt64) : MdbManager :=
  { manager with areaStat := fun area => { manager.areaStat area with quota := quotas area } }

theorem Kept.withQuotas {mdb : MdbManager} {layout : Layout} (kept : Kept mdb layout)
    (quotas : Nat → UInt64) : Kept (mdb.withQuotas quotas) layout :=
  kept.alike (Alike.areaStat _ _) fun counter area => counter.quota (mdb.areaStat area) _

/-- Whatever the quotas, they are kept where no area has two gigabytes too much. -/
theorem quotas_kept_iff {param : MdbParam} {start state : MdbManager}
    (begun : initialized param = .ok start)
    (reached : start.Serves state) (quotas : Nat → UInt64) :
    QuotasKept (state.withQuotas quotas) ↔ ∀ area, area < tairMaxAreaCount →
      (state.areaStat area).dataSize.toNat < (quotas area).toNat + 2 ^ 31 := by
  obtain ⟨layout, kept⟩ := kept_of_reached begun reached
  exact (kept.withQuotas quotas).quotasKept_iff

/-- An item too much is removed. -/
theorem quotas_kept_iff_run : ∃ start state, initialized smallParam = .ok start ∧
    start.Serves state ∧
    (state.areaStat 1).dataSize = 4 ∧ QuotasKept (state.withQuotas fun _ => 3) := by
  obtain ⟨start, state, begun, reached, stored, small⟩ := exists_served smallParam
    [putOf [1, 0, 65] [7]]
    (fun state => (state.areaStat 1).dataSize = 4 ∧ ∀ area, area < tairMaxAreaCount →
      (state.areaStat area).dataSize.toNat < 3 + 2 ^ 31) (by decide +kernel)
  exact ⟨start, state, begun, reached, stored,
    (quotas_kept_iff begun reached fun _ => 3).mpr small⟩

/-! ### An area with more than two gigabytes -/

theorem Supplied.freePages {mdb next : MdbManager} {slab : Nat}
    (supplied : Supplied mdb next slab) : mdb.pool.freePages ≤ next.pool.freePages + 1 := by
  cases supplied with
  | page free upkeep =>
    rw [upkeep.pool]
    exact Nat.le_succ _
  | pool pool index paged upkeep =>
    obtain ⟨isPool, -⟩ := MemPool.allocPage_some paged
    rw [upkeep.pool, isPool]
    exact Nat.le_add_of_sub_le le_rfl

namespace MdbManager

variable {mdb next : MdbManager} {key data entry : DataEntry} {version : UInt16}
  {expired : Int32} {oldFlag : Nat} {now evictNow : UInt32}

theorem putVictim_none (pages : mdb.pool.freePages ≠ 0)
    (within : mdb.isQuotaExceed (keyArea key.data) = false) :
    mdb.putVictim key data evictNow = none := by
  unfold putVictim
  cases mdb.getSlabmng (key.data.length + data.data.length + mdbItemSize) with
  | none => rfl
  | some slab =>
    have room : mdb.hasRoom slab = true := decide_eq_true (Or.inr (Or.inr pages))
    change mdb.victim slab (keyArea key.data) evictNow = none
    unfold victim
    rw [if_neg (by rw [within]; exact Bool.false_ne_true), if_pos room]

theorem store_fresh (merged : MergedKey key.data)
    (stored : mdb.store key data version expired oldFlag now evictNow = .ok (next, entry))
    (noVictim : mdb.putVictim key data evictNow = none) :
    mdb.pool.freePages ≤ next.pool.freePages + 1 ∧
      ∃ item : MdbItem, item.area = keyArea key.data ∧ item.keyLen = key.data.length ∧
        item.dataLen = data.data.length % 2 ^ 20 ∧
        next.areaStat = (mdb.bookStored item).areaStat := by
  obtain ⟨slab, given, slot, type, bare, -, chosen, alloc, lost, isNext⟩ :=
    store_parts stored
  have isNew : type = .allocNew := by
    by_contra old
    unfold putVictim at noVictim
    rw [chosen] at noVictim
    cases (allocItem_victim alloc old).symm.trans noVictim
  unfold dropEvicted at lost
  rw [if_pos isNew] at lost
  cases lost
  have wrote : Relinked given
      ((given.writeItem slot key data version expired oldFlag now).insert slot) :=
    (Relinked.modifyItem given slot _).trans (Relinked.insert _ slot)
  have own : (given.writeItem slot key data version expired oldFlag now).items slot =
      fillItem key data version expired oldFlag now (given.items slot) :=
    items_modifyItem_self given slot (fillItem key data version expired oldFlag now)
  refine ⟨?_, fillItem key data version expired oldFlag now (given.items slot), ?_,
    mergedKey_mod_eq merged, rfl, ?_⟩
  · have pages := (supplied_allocItem alloc).freePages
    rw [isNext]
    change mdb.pool.freePages ≤
      ((given.writeItem slot key data version expired oldFlag now).insert slot).pool.freePages + 1
    rw [wrote.pool]
    exact pages
  · rw [(fillItem_keyed merged).area_eq, fillItem_key merged]
  · rw [isNext, own]
    exact bookStored_areaStat (wrote.areaStat.trans (areaStat_allocItem alloc)) _

end MdbManager

def numberedKey (number : Nat) : DataEntry :=
  entryOf [1, 0, UInt8.ofNat (number / 256), UInt8.ofNat (number % 256)]

def largeValue : DataEntry := entryOf (List.replicate 1000000 0)

theorem numberedKey_ne {number other : Nat} (less : number < other) (bound : other < 65536) :
    (numberedKey number).data ≠ (numberedKey other).data := by
  intro same
  simp only [numberedKey, entryOf, List.cons.injEq, and_true, true_and] at same
  have high := congrArg UInt8.toNat same.1
  have low := congrArg UInt8.toNat same.2
  rw [UInt8.toNat_ofNat', UInt8.toNat_ofNat'] at high low
  omega

structure Filled (start manager : MdbManager) (count : Nat) : Prop where
  reached : start.Serves manager
  size : (manager.areaStat 1).dataSize.toNat = count * 1000004
  quota : (manager.areaStat 1).quota.toNat = 2 ^ 63
  pages : 3000 ≤ manager.pool.freePages + count
  keys : ∀ slot, manager.Stored slot → ∃ number, number < count ∧
    (manager.items slot).key = (numberedKey number).data

theorem Filled.next {start mdb : MdbManager} {count : Nat}
    (begun : initialized largeParam = .ok start)
    (given : ∀ slab, slab < start.slabsCount → (start.slabs slab).freePagesNo = 1)
    (large : 0 < start.slabsCount ∧ 1000050 ≤ (start.slabs 0).slabSize)
    (filled : Filled start mdb count) (few : count < 2200) :
    ∃ next, Filled start next (count + 1) := by
  obtain ⟨layout, kept⟩ := kept_of_reached begun filled.reached
  have steady := steady_of_reached begun filled.reached
  have stocked := (Stocked.initialized begun given).steady steady
  have keyLength : (numberedKey count).data.length = 4 := rfl
  have length : largeValue.data.length = 1000000 := List.length_replicate
  have merged : MergedKey (numberedKey count).data := by
    unfold MergedKey
    rw [keyLength]
    decide
  have fits : Fitting mdb (numberedKey count) largeValue 0 := by
    refine ⟨?_, ?_⟩
    · rw [steady.slabsCount]
      exact large.1
    · rw [steady.slabSize, length, keyLength]
      unfold mdbItemSize
      exact large.2
  have isArea : keyArea (numberedKey count).data = 1 := by
    change (1 : UInt8).toNat + (0 : UInt8).toNat * 2 ^ 8 = 1
    decide
  obtain ⟨⟨next, code, entry⟩, put⟩ := @Kept.doPut_ends mdb layout (numberedKey count) largeValue
    0 1000 1000 0 kept stocked (by rw [isArea]; decide) fits false
  have absent : ∀ slot, layout.Live slot →
      (mdb.items slot).key ≠ (numberedKey count).data := by
    intro slot found
    obtain ⟨number, less, isKey⟩ := filled.keys slot (kept.intact.stored found)
    rw [isKey]
    exact numberedKey_ne less (by omega)
  have size := filled.size
  have within : mdb.isQuotaExceed (keyArea (numberedKey count).data) = false := by
    rw [isArea]
    unfold MdbManager.isQuotaExceed
    rw [decide_eq_false_iff_not, UInt64.not_le, UInt64.lt_iff_toNat_lt, filled.quota, size]
    omega
  have pages := filled.pages
  have noVictim := @MdbManager.putVictim_none mdb (numberedKey count) largeValue 1000 (by omega)
    within
  obtain ⟨found, search, out⟩ := doPut_cases put
  cases kept.intact.1.find search with
  | present slot here isKey => exact absurd isKey (absent slot here)
  | absent _ =>
    obtain ⟨-, -, mismatch⟩ | ⟨-, -, clean, removal, removed, stored⟩ := out
    · obtain ⟨item, none, -⟩ := mismatch
      cases none
    · cases (MdbManager.doRemove_none search).symm.trans removed
      obtain ⟨fewer, item, itemArea, keyLen, dataLen, stats⟩ :=
        store_fresh merged stored noVictim
      obtain ⟨relaid, slot, old, -, stores, -⟩ :=
        kept.intact.1.store kept.intact.2 merged absent stored
      rw [isArea] at itemArea
      have own : next.areaStat 1 = ((mdb.bookStored item).areaStat 1) := congrFun stats 1
      rw [MdbManager.bookStored, areaStat_modifyAreaStat, if_pos itemArea] at own
      refine ⟨next, ?_, ?_, ?_, by omega, ?_⟩
      · refine .step filled.reached
          (.put (numberedKey count) largeValue false 0 1000 1000) merged ?_
        unfold MdbManager.step
        dsimp only
        rw [put]
        rfl
      · rw [own]
        dsimp only
        rw [keyLen, dataLen, length, keyLength, UInt64.toNat_add, size]
        change (count * 1000004 + 1000004) % 2 ^ 64 = _
        rw [Nat.mod_eq_of_lt (by omega)]
        omega
      · rw [own]
        exact filled.quota
      · intro other otherStored
        have found := stores.sound.stored_iff.mp otherStored
        by_cases same : other = slot
        · refine ⟨count, Nat.lt_succ_self count, ?_⟩
          rw [same, MdbItem.key_of_body stores.body, fillItem_key merged]
        · obtain ⟨prior, body⟩ := stores.shrinks other same found
          obtain ⟨number, less, isKey⟩ := filled.keys other (kept.intact.stored prior)
          refine ⟨number, by omega, ?_⟩
          rw [MdbItem.key_of_body body]
          exact isKey

theorem exists_filled : ∃ start mdb, initialized largeParam = .ok start ∧
    Filled start mdb 2200 := by
  have ran : (initialized largeParam).toOption.any (fun start =>
      decide (∀ slab, slab < start.slabsCount → (start.slabs slab).freePagesNo = 1) &&
        (decide (0 < start.slabsCount ∧ 1000050 ≤ (start.slabs 0).slabSize) &&
          decide (3000 ≤ start.pool.freePages))) = true := by
    decide +kernel
  obtain ⟨start, begins, test⟩ := (Option.any_eq_true _ _).mp ran
  rw [Bool.and_eq_true, Bool.and_eq_true, decide_eq_true_eq, decide_eq_true_eq,
    decide_eq_true_eq] at test
  obtain ⟨given, large, pages⟩ := test
  have begun := ok_of_toOption begins
  have counts : ∀ count, count ≤ 2200 → ∃ mdb, Filled start mdb count := by
    intro count
    induction count with
    | zero =>
      intro _
      obtain ⟨layout, intact, none⟩ := intact_initialized begun
      have zero := (begun_initialized begun).areaStat
      refine ⟨start.setAreaQuota 1 9223372036854775808,
        .step .start (.setAreaQuota 1 9223372036854775808) trivial rfl, ?_, ?_, pages, ?_⟩
      · unfold setAreaQuota
        dsimp only
        rw [Function.update_self, zero]
        rfl
      · unfold setAreaQuota
        dsimp only
        rw [Function.update_self]
        rfl
      · intro slot stored
        have assigned : Alike start (start.setAreaQuota 1 9223372036854775808) :=
          Alike.areaStat _ _
        exact absurd ((intact.1.alike assigned).stored_iff.mp stored) (none slot)
    | succ count ih =>
      intro few
      obtain ⟨mdb, filled⟩ := ih (by omega)
      exact filled.next begun given large (by omega)
  obtain ⟨mdb, filled⟩ := counts 2200 le_rfl
  exact ⟨start, mdb, begun, filled⟩

/-- With 2200 values of a megabyte and quotas of zero, what the area has too much is negative as an
integer of 32 bits. -/
theorem quota_too_far : ∃ start state, initialized largeParam = .ok start ∧
    start.Serves state ∧
    (state.areaStat 1).dataSize.toNat = 2200008800 ∧
    (state.withQuotas fun _ => 0).keepAreaQuota 1 (state.areaStat 1).dataSize =
      .error .assertFailed ∧
    ¬ QuotasKept (state.withQuotas fun _ => 0) := by
  obtain ⟨start, state, begun, filled⟩ := exists_filled
  obtain ⟨layout, kept⟩ := kept_of_reached begun filled.reached
  have size : (state.areaStat 1).dataSize.toNat = 2200008800 := filled.size
  refine ⟨start, state, begun, filled.reached, size, ?_, ?_⟩
  · unfold keepAreaQuota check
    dsimp only
    rw [size, if_neg (by decide)]
  · intro property
    have small := (kept.withQuotas fun _ => 0).quotasKept_iff.mp property 1 (by decide)
    unfold MdbManager.SmallExcess at small
    change (state.areaStat 1).dataSize.toNat < 0 + 2 ^ 31 at small
    omega

end Tair.Mdb
