/-
Sweeps keep the memory intact. What comes next was read before an item went, and is still there.
All that a sweep does is a sequence of removals, of empty pages that go back to the pool, and of a
reset of counters.
-/

import Tair.Mdb.Searches

namespace Tair.Mdb

open MdbManager Tair.Common Tair.Library

/-- Memory that follows some layout, with nothing left over in free slots. -/
def Intact (manager : MdbManager) (layout : Layout) : Prop :=
  Sound manager layout none none ∧ Unset manager layout

/-- An operation that keeps the memory intact and at most loses items. -/
def Loses (manager next : MdbManager) : Prop :=
  ∀ layout, Intact manager layout → ∃ relaid, Intact next relaid ∧
    Shrinks manager layout next relaid

namespace Loses

variable {mdb middle next : MdbManager}

theorem refl (mdb : MdbManager) : Loses mdb mdb :=
  fun layout intact => ⟨layout, intact, Shrinks.refl mdb layout⟩

theorem trans (first : Loses mdb middle) (second : Loses middle next) : Loses mdb next := by
  intro layout intact
  obtain ⟨between, intactBetween, shrinks⟩ := first layout intact
  obtain ⟨relaid, intactAfter, more⟩ := second between intactBetween
  exact ⟨relaid, intactAfter, shrinks.trans more⟩

theorem alike (books : Alike mdb next) : Loses mdb next := by
  intro layout intact
  obtain ⟨sound, unset⟩ := intact
  exact ⟨layout, ⟨sound.alike books, Sound.unset_framed books.framed unset⟩,
    Shrinks.of_framed books.framed (fun _ found => found)⟩

end Loses

namespace Intact

variable {mdb next : MdbManager} {layout : Layout} {slot : Slot}

theorem live_of_list {index : Nat × Nat} (intact : Intact mdb layout)
    (onList : layout.list slot = some index) : layout.Live slot :=
  (intact.1.settled.live slot index.1 index.2 onList (by simp)).2

theorem stored (intact : Intact mdb layout) (found : layout.Live slot) : mdb.Stored slot :=
  intact.1.stored_iff.mpr found

theorem removeItem (intact : Intact mdb layout) (found : layout.Live slot)
    (gone : mdb.removeItem slot = .ok next) :
    ∃ relaid, Intact next relaid ∧ Removes mdb layout next relaid slot := by
  obtain ⟨relaid, removes⟩ := intact.1.removeItem intact.2 found gone
  exact ⟨relaid, ⟨removes.sound, removes.unset⟩, removes⟩

theorem freed (intact : Intact mdb layout) (found : layout.Live slot)
    (gone : mdb.removeItem slot = .ok next) :
    Freed (mdb.bookGone (mdb.items slot)) next (slabId (mdb.items slot).itemId)
      slot.page := by
  obtain ⟨unhashed, hashRemoved, freed⟩ := MdbManager.freed_removeItem gone
  have books := Alike.bookGone mdb (mdb.items slot)
  obtain ⟨-, framed, -⟩ := (intact.1.alike books).remove found (Or.inl rfl) hashRemoved
  rw [slabId_clearFlags, framed.itemId] at freed
  exact freed

end Intact

/-! ### What sweeps are made of -/

namespace MdbManager

def releasePage (manager : MdbManager) (slab page : Nat) : MdbManager :=
  let unlinked := (manager.unlinkPage slab page .free).modifySlab slab (fun s =>
    { s with freePagesNo := s.freePagesNo - 1 })
  { unlinked with pool := unlinked.pool.freePage (unlinked.pages page).id }

theorem upkeep_releasePage (mdb : MdbManager) (slab page : Nat) :
    Upkeep mdb (mdb.releasePage slab page) slab (-1) (-1)
      (mdb.pool.freePage (mdb.pages page).id) := by
  have unlinked := Relinked.unlinkPage mdb slab page .free
  have counted := Upkeep.after unlinked (Upkeep.addFree _ slab (-1))
  refine ⟨?_, counted.outline, counted.owned, counted.free⟩
  rw [← unlinked.pool, ← unlinked.id]
  rfl

end MdbManager

theorem Alike.balanceSlabDone (mdb : MdbManager) : Alike mdb mdb.balanceSlabDone := rfl

inductive Shed : MdbManager → MdbManager → Prop
  | remove {manager next : MdbManager} (slot : Slot) (stored : manager.Stored slot)
      (removed : manager.removeItem slot = .ok next) : Shed manager next
  | release {manager : MdbManager} (slab : Nat) (empty : 0 < (manager.slabs slab).freePagesNo)
      (more : 1 < (manager.slabs slab).pagesOwned) :
      Shed manager (manager.releasePage slab (manager.slabs slab).freePages)
  | reset (manager : MdbManager) : Shed manager manager.balanceSlabDone

abbrev Sheds : MdbManager → MdbManager → Prop := Relation.ReflTransGen Shed

namespace Shed

variable {mdb next : MdbManager}

theorem intact_releasePage {layout : Layout} {slab page : Nat} (intact : Intact mdb layout)
    (pos : 0 < (mdb.slabs slab).freePagesNo) (isPage : (mdb.slabs slab).freePages = page) :
    Intact (mdb.releasePage slab page) (layout.reown page none) ∧
      (mdb.releasePage slab page).items = mdb.items := by
  obtain ⟨sound, unset⟩ := intact
  obtain ⟨owner, -, all, home⟩ := sound.freePage pos isPage
  obtain ⟨opened, moves⟩ := sound.openPage owner home Recounts.freeToPart
  obtain ⟨-, -, -, -, id⟩ := opened.settled.owned page slab owner
  rw [← moves.freeNr, ← moves.perSlab] at all
  have released := opened.release owner all Recounts.fromPart
  rw [modifySlab_modifySlab] at released
  have change : (fun s : SlabManager => { s with
      freePagesNo := s.freePagesNo - 1
      partialPagesNo := s.partialPagesNo + 1 - 1 }) = (fun s : SlabManager => { s with
        freePagesNo := s.freePagesNo - 1 }) := by
    funext s
    rw [add_sub_cancel_right]
  rw [change] at released
  have ofPage : (((mdb.unlinkPage slab page .free).modifySlab slab (fun s =>
      { s with freePagesNo := s.freePagesNo - 1 })).pages page).id = page := id
  have items : (mdb.releasePage slab page).items = mdb.items := moves.items
  refine ⟨⟨?_, ?_⟩, items⟩
  · unfold MdbManager.releasePage
    dsimp only
    rw [ofPage]
    exact released
  · intro slot off
    rw [items]
    exact unset slot off

theorem loses (shed : Shed mdb next) : Loses mdb next := by
  cases shed with
  | remove slot stored gone =>
    intro layout intact
    obtain ⟨relaid, intactAfter, removes⟩ :=
      intact.removeItem (intact.1.stored_iff.mp stored) gone
    exact ⟨relaid, intactAfter, removes.shrinks⟩
  | release slab empty more =>
    intro layout intact
    obtain ⟨intactAfter, items⟩ := intact_releasePage intact empty rfl
    refine ⟨_, intactAfter, fun slot found => ⟨found, ?_⟩⟩
    rw [items]
  | reset => exact Loses.alike (Alike.balanceSlabDone mdb)

end Shed

theorem Sheds.loses {mdb next : MdbManager} (sheds : Sheds mdb next) : Loses mdb next := by
  induction sheds with
  | refl => exact Loses.refl mdb
  | tail _ last ih => exact ih.trans last.loses

/-- In memory that is intact, an operation does nothing that sweeps do not do. -/
def Sweeps (manager next : MdbManager) : Prop :=
  ∀ layout, Intact manager layout → Sheds manager next

namespace Sweeps

variable {mdb middle next : MdbManager}

theorem refl (mdb : MdbManager) : Sweeps mdb mdb :=
  fun _ _ => Relation.ReflTransGen.refl

theorem trans (first : Sweeps mdb middle) (second : Sweeps middle next) : Sweeps mdb next := by
  intro layout intact
  have before := first layout intact
  obtain ⟨between, intactBetween, -⟩ := before.loses layout intact
  exact Relation.ReflTransGen.trans before (second between intactBetween)

theorem loses (sweeps : Sweeps mdb next) : Loses mdb next :=
  fun layout intact => (sweeps layout intact).loses layout intact

theorem foldlM {α : Type} {round : MdbManager → α → Except Fault MdbManager}
    (rounds : ∀ {mdb next} (entry : α), round mdb entry = .ok next → Sweeps mdb next)
    {entries : List α} (looped : entries.foldlM round mdb = .ok next) : Sweeps mdb next :=
  foldlM_relates refl trans rounds looped

theorem removeItem {slot : Slot} (found : ∀ layout, Intact mdb layout → layout.Live slot)
    (gone : mdb.removeItem slot = .ok next) : Sweeps mdb next :=
  fun layout intact =>
    Relation.ReflTransGen.single (.remove slot (intact.stored (found layout intact)) gone)

/-! ### Along a hash chain -/

/-- The walk is at an item that can be found. The next one still can after it went. -/
theorem sweepFrom {chosen : MdbItem → Bool} {steps : Nat} :
    ∀ {pos : Nat} {mdb : MdbManager} {layout : Layout}, Intact mdb layout →
      (pos ≠ 0 → layout.Live (slotOf pos)) →
      sweepFrom chosen steps pos mdb = .ok next → Sheds mdb next := by
  induction steps with
  | zero =>
    intro pos mdb layout _ _ swept
    cases swept
  | succ steps ih =>
    intro pos mdb layout intact start swept
    unfold MdbManager.sweepFrom at swept
    dsimp only at swept
    by_cases ends : pos = 0
    · rw [if_pos ends] at swept
      cases swept
      exact Relation.ReflTransGen.refl
    · rw [if_neg ends] at swept
      obtain ⟨bucket, chained⟩ := start ends
      have onward : (mdb.items (slotOf pos)).hNext ≠ 0 →
          layout.Live (slotOf (mdb.items (slotOf pos)).hNext) ∧
            slotOf (mdb.items (slotOf pos)).hNext ≠ slotOf pos := by
        intro real
        have leads : mdb.chainNext (slotOf pos) =
            some (slotOf (mdb.items (slotOf pos)).hNext) := link_of_ne real
        refine ⟨⟨bucket, Chained.place_next intact.1.chains chained leads⟩, ?_⟩
        intro same
        rw [same] at leads
        exact Chained.next_ne intact.1.chains chained leads
      split at swept
      · obtain ⟨gone, removal, more⟩ := ok_of_bind swept
        obtain ⟨between, intactBetween, removes⟩ := intact.removeItem ⟨bucket, chained⟩ removal
        have others := ih intactBetween
          (fun real => removes.kept _ (onward real).1 (onward real).2) more
        exact Relation.ReflTransGen.head
          (.remove _ (intact.stored ⟨bucket, chained⟩) removal) others
      · exact ih intact (fun real => (onward real).1) swept

theorem sweep {chosen : Nat → MdbItem → Bool} (swept : mdb.sweep chosen = .ok next) :
    Sweeps mdb next := by
  apply Sweeps.foldlM _ swept
  intro mdb next index swept layout intact
  apply sweepFrom intact _ swept
  intro real
  refine ⟨index, ?_⟩
  apply Chained.place_first intact.1.chains
  exact link_of_ne real

/-! ### Along a list -/

theorem clearFrom {steps : Nat} :
    ∀ {pos : Nat} {mdb : MdbManager} {layout : Layout}, Intact mdb layout →
      (pos ≠ 0 → layout.list (slotOf pos) ≠ none) →
      clearFrom steps pos mdb = .ok next → Sheds mdb next := by
  induction steps with
  | zero =>
    intro pos mdb layout _ _ clean
    cases clean
  | succ steps ih =>
    intro pos mdb layout intact start clean
    unfold MdbManager.clearFrom at clean
    by_cases ends : pos = 0
    · rw [if_pos ends] at clean
      cases clean
      exact Relation.ReflTransGen.refl
    · rw [if_neg ends] at clean
      obtain ⟨gone, removal, more⟩ := ok_of_bind clean
      obtain ⟨index, onList⟩ := Option.ne_none_iff_exists'.mp (start ends)
      obtain ⟨between, intactBetween, removes⟩ :=
        intact.removeItem (intact.live_of_list onList) removal
      have onward : (mdb.items (slotOf pos)).next ≠ 0 →
          between.list (slotOf (mdb.items (slotOf pos)).next) ≠ none := by
        intro real
        have leads : mdb.itemNext (slotOf pos) =
            some (slotOf (mdb.items (slotOf pos)).next) := link_of_ne real
        have ne : slotOf (mdb.items (slotOf pos)).next ≠ slotOf pos := by
          intro same
          rw [same] at leads
          exact intact.1.items.threaded.forward.next_ne onList leads
        rw [removes.list _ ne, intact.1.items.threaded.forward.place_next onList leads]
        exact Option.some_ne_none index
      exact Relation.ReflTransGen.head
        (.remove _ (intact.stored (intact.live_of_list onList)) removal)
        (ih intactBetween onward more)

theorem clearArea {area : Nat} (clean : mdb.clearArea area = .ok next) : Sweeps mdb next := by
  apply Sweeps.foldlM _ clean
  intro mdb next slab clean layout intact
  apply clearFrom intact _ clean
  intro real
  have head : mdb.listHead (slab, area) =
      some (slotOf ((mdb.slabs slab).itemList area).itemHead) := link_of_ne real
  rw [intact.1.items.threaded.forward.place_first head]
  exact Option.some_ne_none _

/-! ### Quotas -/

theorem quotaRound {area : Nat} {firstRound : Bool} {slabs : List Nat} {exceed left : Int}
    (rounded : quotaRound area firstRound slabs mdb exceed = .ok (next, left)) :
    Sweeps mdb next := by
  induction slabs generalizing mdb exceed with
  | nil =>
    cases rounded
    exact refl _
  | cons slab rest ih =>
    unfold quotaRound at rounded
    dsimp only at rounded
    split at rounded
    · exact ih rounded
    · rename_i listed
      split at rounded
      · exact ih rounded
      · obtain ⟨gone, removal, more⟩ := ok_of_bind rounded
        have one : Sweeps mdb gone := by
          refine removeItem (fun layout intact => ?_) removal
          have tail : mdb.listTail (slab, area) =
              some (slotOf ((mdb.slabs slab).itemList area).itemTail) :=
            link_of_ne (fun zero => listed (Or.inr zero))
          exact intact.live_of_list (intact.1.items.threaded.backward.place_first tail)
        split at more
        · cases more
          exact one
        · exact one.trans (ih more)

theorem quotaRounds {area rounds : Nat} {firstRound : Bool} {exceed : Int}
    (kept : quotaRounds area rounds firstRound mdb exceed = .ok next) :
    Sweeps mdb next := by
  induction rounds generalizing mdb exceed firstRound with
  | zero => cases kept
  | succ rounds ih =>
    unfold quotaRounds at kept
    split at kept
    · cases kept
      exact refl _
    · obtain ⟨⟨between, left⟩, rounded, more⟩ := ok_of_bind kept
      exact (quotaRound rounded).trans (ih more)

theorem checkQuota (checked : mdb.checkQuota = .ok next) : Sweeps mdb next := by
  apply Sweeps.foldlM _ checked
  intro mdb next area kept
  dsimp only at kept
  split at kept
  · cases kept
    exact refl mdb
  · split at kept
    · obtain ⟨-, rounds⟩ := ok_of_check kept
      exact quotaRounds rounds
    · cases kept
      exact refl mdb

/-! ### Pages -/

theorem clearPage {slab page : Nat} (clean : mdb.clearPage slab page = .ok next) :
    Sweeps mdb next := by
  apply Sweeps.foldlM _ clean
  intro mdb next offset clean
  dsimp only at clean
  split at clean
  · cases clean
    exact refl mdb
  · rename_i linked
    refine removeItem (fun layout intact => ?_) clean
    have onList : layout.list ⟨page, offset⟩ ≠ none :=
      fun off => linked (intact.1.blank _ off (by simp))
    obtain ⟨index, placed⟩ := Option.ne_none_iff_exists'.mp onList
    exact intact.live_of_list placed

theorem freePage {slab : Nat} {more : Bool} (freed : mdb.freePage slab = .ok (next, more)) :
    Sweeps mdb next := by
  unfold MdbManager.freePage at freed
  dsimp only at freed
  split at freed
  · cases freed
    exact refl mdb
  · rename_i more
    split at freed
    · cases freed
      exact fun _ _ => Relation.ReflTransGen.single (.release slab ‹_› (not_le.mp more))
    · split at freed
      · obtain ⟨clean, clear, same⟩ := ok_of_map freed
        cases same
        exact clearPage clear
      · split at freed
        · obtain ⟨clean, clear, same⟩ := ok_of_map freed
          cases same
          exact clearPage clear
        · cases freed

theorem freePages {slab times : Nat} (freed : MdbManager.freePages slab times mdb = .ok next) :
    Sweeps mdb next := by
  induction times generalizing mdb with
  | zero =>
    cases freed
    exact refl _
  | succ times ih =>
    unfold MdbManager.freePages at freed
    obtain ⟨⟨between, more⟩, one, further⟩ := ok_of_bind freed
    split at further
    · exact (freePage one).trans (ih further)
    · cases further
      exact freePage one

theorem balanceSlab {finalCount : Nat → Int} (balanced : mdb.balanceSlab finalCount = .ok next) :
    Sweeps mdb next := by
  apply Sweeps.foldlM _ balanced
  intro mdb next entry freed
  exact freePages freed

theorem balanceSlabDone (mdb : MdbManager) : Sweeps mdb mdb.balanceSlabDone :=
  fun _ _ => Relation.ReflTransGen.single (.reset mdb)

theorem clear {area : Int} {clock : Nat → UInt32} {finalCount : Nat → Int}
    (clean : mdb.clear area clock finalCount = .ok next) : Sweeps mdb next := by
  unfold MdbManager.clear at clean
  split at clean
  · exact sweep clean
  · split at clean
    · obtain ⟨balanced, balance, same⟩ := ok_of_map clean
      rw [same]
      exact (balanceSlab balance).trans (balanceSlabDone balanced)
    · split at clean
      · exact Sweeps.foldlM (fun area clean => clearArea clean) clean
      · exact clearArea (ok_of_check clean).2

theorem doRemove {key : DataEntry} {code : ReturnCode}
    (gone : mdb.doRemove key = .ok (next, code)) : Sweeps mdb next := by
  unfold MdbManager.doRemove at gone
  obtain ⟨found, search, rest⟩ := ok_of_bind gone
  cases found with
  | none =>
    cases rest
    exact refl mdb
  | some slot =>
    obtain ⟨after, removal, isAnswer⟩ := ok_of_map rest
    cases isAnswer
    exact removeItem (fun _ intact => intact.1.live_of_find search) removal

end Sweeps

/-- What an operation comes to: a put, a sweep, an item that moves on its list, or a quota. -/
inductive Ran (manager : MdbManager) : Operation → MdbManager → Prop
  | put {key data entry : DataEntry} {versionCare : Bool} {expired : Int32}
      {now evictNow : UInt32} {next : MdbManager} {code : ReturnCode}
      (put : manager.doPut key data versionCare expired now evictNow = .ok (next, code, entry)) :
      Ran manager (.put key data versionCare expired now evictNow) next
  | sweeps {op : Operation} {next : MdbManager} (sweeps : Sweeps manager next) :
      Ran manager op next
  | touch {op : Operation} {slot : Slot}
      (found : ∀ layout, Intact manager layout → layout.Live slot) :
      Ran manager op (manager.updateItem (slabId (manager.items slot).itemId) slot
        (manager.items slot).area)
  | quota {op : Operation} (area : Nat) (quota : UInt64) :
      Ran manager op (manager.setAreaQuota area quota)

theorem ran_of_step {mdb next : MdbManager} {op : Operation} (ran : mdb.step op = .ok next) :
    Ran mdb op next := by
  cases op with
  | put key data versionCare expired now evictNow =>
    obtain ⟨⟨stored, code, entry⟩, put, rfl⟩ := ok_of_map ran
    exact .put put
  | get key data now =>
    obtain ⟨⟨read, code, keyOut, dataOut⟩, got, rfl⟩ := ok_of_map ran
    obtain ⟨found, search, absent | ⟨slot, rfl, past | fresh⟩⟩ := doGet_cases got
    · rw [absent.2.2]
      exact .sweeps (.refl mdb)
    · exact .sweeps (.removeItem (fun _ intact => intact.1.live_of_find search) past.2.2)
    · rw [fresh.2.2]
      exact .touch (fun _ intact => intact.1.live_of_find search)
  | remove key =>
    obtain ⟨⟨gone, code⟩, removal, rfl⟩ := ok_of_map ran
    exact .sweeps (.doRemove removal)
  | clear area clock finalCount => exact .sweeps (.clear ran)
  | closeBuckets bucketCount buckets clock => exact .sweeps (.sweep ran)
  | removeExprdItem clock => exact .sweeps (.sweep ran)
  | balanceSlab finalCount => exact .sweeps (.balanceSlab ran)
  | checkQuota =>
    have checked : mdb.checkQuota = .ok next := ran
    exact .sweeps (.checkQuota checked)
  | setAreaQuota area quota =>
    cases ran
    exact .quota area quota

end Tair.Mdb
