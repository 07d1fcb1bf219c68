/-
The scan of a migration and the closing of buckets. Both go over the hash chains and take items
out on their way; the links behind an item that goes stay as they were, so that nothing is missed.
-/

import Tair.Mdb.Steady

namespace Tair.Mdb

open MdbManager Tair.Common Tair.Library

/-- `item_data_info`, as far as a scan fills it. -/
structure ItemDataInfo where
  keysize : Nat
  valsize : Nat
  version : UInt16
  flag : Nat
  mdate : UInt32
  edate : UInt32
  data : List UInt8
deriving DecidableEq, Repr

def MdbItem.dataInfo (item : MdbItem) : ItemDataInfo where
  keysize := item.keyLen
  valsize := item.dataLen
  version := item.version
  flag := itemFlags item.itemId
  mdate := item.updateTime
  edate := item.exptime
  data := item.data.take (item.keyLen + item.dataLen)

namespace MdbManager

/-- The loop over one chain: chosen items go, and of the others those that are wanted are listed. -/
def scanFrom (chosen wanted : MdbItem → Bool) :
    Nat → Nat → MdbManager → List ItemDataInfo → Except Fault (MdbManager × List ItemDataInfo)
  | 0, _, _, _ => .error .endless
  | steps + 1, pos, manager, list =>
    if pos = 0 then .ok (manager, list)
    else
      let item := manager.items (slotOf pos)
      if chosen item then
        manager.removeItem (slotOf pos) >>= fun removed =>
          scanFrom chosen wanted steps item.hNext removed list
      else scanFrom chosen wanted steps item.hNext manager
        (if wanted item then list ++ [item.dataInfo] else list)

/-- The first of so many chains that is not empty, or the one behind them. -/
def passEmpty (manager : MdbManager) : Nat → Nat → Nat
  | 0, index => index
  | chains + 1, index =>
    if manager.hashtable index = 0 then passEmpty manager chains (index + 1) else index

variable (manager : MdbManager)

variable {mdb next : MdbManager} {layout relaid : Layout} {slot other : Slot}
  {chosen wanted : MdbItem → Bool} {nodes : List Slot}

theorem items_linkPage (mdb : MdbManager) (slab page : Nat) (which : PageList) :
    (mdb.linkPage slab page which).items = mdb.items := by
  unfold linkPage modifyLinkedPage
  dsimp only
  split
  · rfl
  · rfl

theorem items_unlinkPage (mdb : MdbManager) (slab page : Nat) (which : PageList) :
    (mdb.unlinkPage slab page which).items = mdb.items := by
  unfold unlinkPage modifyLinkedPage
  dsimp only
  split_ifs <;> rfl

theorem items_reopenPage (mdb : MdbManager) (slab page : Nat) :
    (mdb.reopenPage slab page).items = mdb.items := by
  unfold reopenPage
  split
  · exact items_unlinkPage ..
  · exact items_unlinkPage ..

theorem items_refilePage (mdb : MdbManager) (slab page : Nat) :
    (mdb.refilePage slab page).items = mdb.items := by
  unfold refilePage
  dsimp only
  split_ifs
  · exact items_linkPage ..
  · rfl
  · exact items_linkPage ..

theorem hNext_modifyLinked {change : MdbItem → MdbItem}
    (links : ∀ item, (change item).hNext = item.hNext) (mdb : MdbManager) (id : Nat)
    (other : Slot) :
    ((mdb.modifyLinked id change).items other).hNext = (mdb.items other).hNext := by
  unfold modifyLinked
  split
  · rfl
  · by_cases same : other = slotOf id
    · rw [same, items_modifyItem_self, links]
    · rw [items_modifyItem_of_ne _ _ same]

theorem items_pushSlot_of_ne (mdb : MdbManager) (ne : other ≠ slot) :
    (mdb.pushSlot slot).items other = mdb.items other := by
  unfold pushSlot
  exact Function.update_of_ne ne _ _

theorem hNext_unlinkItem (mdb : MdbManager) (slab : Nat) (slot other : Slot) :
    ((mdb.unlinkItem slab slot).items other).hNext = (mdb.items other).hNext := by
  unfold unlinkItem
  dsimp only
  refine (hNext_modifyLinked ?_ _ _ other).trans (hNext_modifyLinked ?_ _ _ other)
  · exact fun _ => rfl
  · exact fun _ => rfl

theorem links_removeItem (intact : Intact mdb layout) (found : layout.Live slot)
    (gone : mdb.removeItem slot = .ok next) (ne : other ≠ slot)
    (apart : mdb.chainNext other ≠ some slot) : next.chainNext other = mdb.chainNext other := by
  unfold removeItem at gone
  obtain ⟨unhashed, hashRemoved, rfl⟩ := ok_of_map gone
  have books := Alike.bookGone mdb (mdb.items slot)
  obtain ⟨-, -, links⟩ := (intact.1.alike books).remove found (Or.inl rfl) hashRemoved
  refine Eq.trans ?_ (links other ne apart)
  unfold chainNext
  rw [items_modifyItem_of_ne _ _ ne, freeItem_eq rfl ((relinked_reopenPage ..).freeNr _),
    items_refilePage, items_pushSlot_of_ne _ ne, items_reopenPage, hNext_unlinkItem]
  dsimp only [modifySlab]
  rw [items_modifyItem_of_ne _ _ ne]

/-! ### One chain -/

/-- What does not look at the links of an item. -/
def OfContents {α : Type} (view : MdbItem → α) : Prop :=
  ∀ item other : MdbItem, item.body = other.body → view item = view other

theorem ofContents_dataInfo : OfContents MdbItem.dataInfo := by
  intro item other same
  cases item
  cases other
  cases same
  rfl

/-- The items behind these slots. -/
def listed (slots : List Slot) : List ItemDataInfo :=
  slots.map fun slot => (manager.items slot).dataInfo

/-- The slots of a chain whose items are listed. -/
def selected (chosen wanted : MdbItem → Bool) (nodes : List Slot) : List Slot :=
  nodes.filter fun slot => !chosen (manager.items slot) && wanted (manager.items slot)

section

variable (same : ∀ slot ∈ nodes, (next.items slot).body = (mdb.items slot).body)

include same

theorem selected_congr (ofChosen : OfContents chosen) (ofWanted : OfContents wanted) :
    next.selected chosen wanted nodes = mdb.selected chosen wanted nodes := by
  apply List.filter_congr
  intro slot member
  rw [ofChosen _ _ (same slot member), ofWanted _ _ (same slot member)]

theorem listed_congr : next.listed nodes = mdb.listed nodes :=
  List.map_congr_left fun slot member => ofContents_dataInfo _ _ (same slot member)

end

theorem scanFrom_chain (ofChosen : OfContents chosen) (ofWanted : OfContents wanted)
    {steps pos : Nat} (intact : Intact mdb layout)
    (chain : Chain mdb.chainNext (link pos) nodes) (nodup : nodes.Nodup)
    (live : ∀ slot ∈ nodes, layout.Live slot) (enough : nodes.length < steps)
    (list : List ItemDataInfo) :
    ∃ next relaid, scanFrom chosen wanted steps pos mdb list =
        .ok (next, list ++ mdb.listed (mdb.selected chosen wanted nodes)) ∧
      Intact next relaid ∧ Steady mdb next ∧ Shrinks mdb layout next relaid ∧
      ∀ slot, relaid.Live slot ↔
        layout.Live slot ∧ (slot ∈ nodes → chosen (mdb.items slot) = false) := by
  induction nodes generalizing mdb layout steps pos list with
  | nil =>
    obtain ⟨steps, rfl⟩ := Nat.exists_eq_succ_of_ne_zero (Nat.ne_of_gt enough)
    have ends : pos = 0 := link_eq_none.mp chain
    refine ⟨mdb, layout, ?_, intact, Steady.refl mdb, Shrinks.refl mdb layout, ?_⟩
    · rw [scanFrom, if_pos ends]
      exact congrArg (fun found => Except.ok (mdb, found)) (List.append_nil list).symm
    · intro slot
      exact ⟨fun found => ⟨found, fun member => absurd member List.not_mem_nil⟩, And.left⟩
  | cons head rest ih =>
    obtain ⟨steps, rfl⟩ := Nat.exists_eq_succ_of_ne_zero (Nat.ne_of_gt (Nat.zero_lt_of_lt enough))
    obtain ⟨starts, linked⟩ := chain
    obtain ⟨real, isHead⟩ := link_eq_some.mp starts
    obtain ⟨apart, distinct⟩ := List.nodup_cons.mp nodup
    have short : rest.length < steps := Nat.lt_of_succ_lt_succ enough
    have found := live head List.mem_cons_self
    have behind (slot : Slot) (member : slot ∈ rest) : layout.Live slot :=
      live slot (List.mem_cons_of_mem _ member)
    rw [scanFrom, if_neg real, isHead]
    dsimp only
    by_cases goes : chosen (mdb.items head) = true
    · obtain ⟨gone, removal⟩ := intact.1.removeItem_ends head
      obtain ⟨between, intactBetween, removes⟩ := intact.removeItem found removal
      have ne (slot : Slot) (member : slot ∈ rest) : slot ≠ head := by
        rintro rfl
        exact apart member
      have stays (slot : Slot) (member : slot ∈ rest) : between.Live slot :=
        removes.kept slot (behind slot member) (ne slot member)
      have same (slot : Slot) (member : slot ∈ rest) :
          (gone.items slot).body = (mdb.items slot).body :=
        (removes.shrinks slot (stays slot member)).2
      have relinked : Chain gone.chainNext (mdb.chainNext head) rest :=
        linked.congr fun slot member => links_removeItem intact found removal (ne slot member)
          (fun leads => apart (linked.next_mem member leads))
      obtain ⟨next, relaid, seen, after, steady, shrinks, left⟩ := ih intactBetween
        relinked distinct stays short list
      refine ⟨next, relaid, ?_, after, (Steady.removeItem removal).trans steady,
        removes.shrinks.trans shrinks, fun slot => ?_⟩
      · rw [if_pos goes, removal]
        refine seen.trans ?_
        rw [selected_congr same ofChosen ofWanted]
        unfold selected
        rw [listed_congr fun slot member => same slot (List.mem_of_mem_filter member),
          List.filter_cons_of_neg (by simp [goes])]
      · rw [left]
        constructor
        · rintro ⟨there, unchosen⟩
          refine ⟨(removes.shrinks slot there).1, fun member => ?_⟩
          cases List.mem_cons.mp member with
          | inl isHead => exact absurd (isHead ▸ there) removes.gone
          | inr later => rw [← ofChosen _ _ (same slot later), unchosen later]
        · rintro ⟨there, unchosen⟩
          have notHead : slot ≠ head := by
            rintro rfl
            cases goes.symm.trans (unchosen List.mem_cons_self)
          refine ⟨removes.kept slot there notHead, fun later => ?_⟩
          rw [ofChosen _ _ (same slot later), unchosen (List.mem_cons_of_mem _ later)]
    · obtain ⟨next, relaid, seen, after, steady, shrinks, left⟩ := ih intact linked distinct
        behind short
        (if wanted (mdb.items head) then list ++ [(mdb.items head).dataInfo] else list)
      refine ⟨next, relaid, ?_, after, steady, shrinks, fun slot => ?_⟩
      · rw [if_neg goes]
        refine seen.trans ?_
        unfold selected listed
        by_cases wants : wanted (mdb.items head) = true
        · rw [if_pos wants, List.filter_cons_of_pos (by simp [goes, wants]), List.map_cons,
            List.append_assoc, List.singleton_append]
        · rw [if_neg wants, List.filter_cons_of_neg (by simp [wants])]
      · rw [left]
        refine and_congr_right fun _ => ⟨fun unchosen member => ?_,
          fun unchosen later => unchosen (List.mem_cons_of_mem _ later)⟩
        cases List.mem_cons.mp member with
        | inl isHead => exact isHead ▸ Bool.eq_false_iff.mpr goes
        | inr later => exact unchosen later

/-! ### All chains -/

/-- The chain that an item belongs to. -/
def home (slot : Slot) : Nat :=
  manager.getBucketIndex (manager.items slot).key

/-- A memory after the chains before `index`, and the slots whose items have been listed. -/
structure Scanned (start : MdbManager) (layout : Layout) (chosen : Nat → MdbItem → Bool)
    (wanted : MdbItem → Bool) (index : Nat) (manager : MdbManager) (relaid : Layout)
    (slots : List Slot) : Prop where
  intact : Intact manager relaid
  steady : Steady start manager
  shrinks : Shrinks start layout manager relaid
  live : ∀ slot, relaid.Live slot ↔ layout.Live slot ∧
    (start.home slot < index → chosen (start.home slot) (start.items slot) = false)
  nodup : slots.Nodup
  mem : ∀ slot, slot ∈ slots ↔
    relaid.Live slot ∧ start.home slot < index ∧ wanted (start.items slot) = true

variable {start : MdbManager} {choice : Nat → MdbItem → Bool} {index : Nat} {slots : List Slot}

theorem Scanned.begun (intact : Intact start layout) :
    Scanned start layout choice wanted 0 start layout [] where
  intact := intact
  steady := Steady.refl start
  shrinks := Shrinks.refl start layout
  live _ := ⟨fun found => ⟨found, fun before => absurd before (Nat.not_lt_zero _)⟩, And.left⟩
  nodup := List.nodup_nil
  mem _ := ⟨fun member => absurd member List.not_mem_nil,
    fun before => absurd before.2.1 (Nat.not_lt_zero _)⟩

theorem Scanned.mem_chain (seen : Scanned start layout choice wanted index mdb relaid slots)
    (members : ∀ slot, slot ∈ nodes ↔ relaid.chain slot = some (.hash index)) (slot : Slot) :
    slot ∈ nodes ↔ relaid.Live slot ∧ start.home slot = index := by
  have hashed {bucket : Nat} (placed : relaid.chain slot = some (.hash bucket)) :
      start.home slot = bucket := by
    obtain ⟨-, isBucket⟩ := seen.intact.1.settled.hashed slot bucket placed
    rw [isBucket, MdbItem.key_of_body (seen.shrinks slot ⟨bucket, placed⟩).2]
    unfold home getBucketIndex
    rw [seen.steady.bucketSize]
  rw [members]
  constructor
  · intro placed
    exact ⟨⟨index, placed⟩, hashed placed⟩
  · rintro ⟨⟨bucket, placed⟩, here⟩
    rw [placed, ← here, hashed placed]

theorem Scanned.chain (ofChoice : ∀ index, OfContents (choice index)) (ofWanted : OfContents wanted)
    (seen : Scanned start layout choice wanted index mdb relaid slots) :
    ∃ next after more, scanFrom (choice index) wanted walkLimit (mdb.hashtable index) mdb
        (start.listed slots) = .ok (next, start.listed more) ∧
      Scanned start layout choice wanted (index + 1) next after more := by
  obtain ⟨nodes, chain, nodup, members⟩ := seen.intact.1.chains (.hash index)
  have here := seen.mem_chain members
  have short : nodes.length < walkLimit :=
    Nat.lt_succ_of_le (length_le_of_placed nodup (placed_of_chain chain))
  have same (slot : Slot) (member : slot ∈ nodes) :=
    (seen.shrinks slot ((here slot).mp member).1).2
  obtain ⟨next, after, ran, intact, steady, shrinks, live⟩ := scanFrom_chain (ofChoice index)
    ofWanted seen.intact chain nodup (fun slot member => ((here slot).mp member).1) short
    (start.listed slots)
  have left (slot : Slot) : after.Live slot ↔ relaid.Live slot ∧
      (start.home slot = index → choice index (start.items slot) = false) := by
    rw [live]
    refine and_congr_right fun found => ⟨fun unchosen own => ?_, fun unchosen member => ?_⟩
    · have member := (here slot).mpr ⟨found, own⟩
      rw [← ofChoice index _ _ (same slot member), unchosen member]
    · rw [ofChoice index _ _ (same slot member), unchosen ((here slot).mp member).2]
  refine ⟨next, after, slots ++ start.selected (choice index) wanted nodes, ?_, intact,
    seen.steady.trans steady, seen.shrinks.trans shrinks, fun slot => ?_, ?_, fun slot => ?_⟩
  · rw [ran, selected_congr same (ofChoice index) ofWanted]
    unfold selected
    rw [listed_congr fun slot member => same slot (List.mem_of_mem_filter member), listed, listed,
      listed, List.map_append]
  · rw [left, seen.live, and_assoc]
    refine and_congr_right fun _ => ⟨fun both before => ?_, fun all => ⟨?_, ?_⟩⟩
    · cases Nat.lt_succ_iff_lt_or_eq.mp before with
      | inl prior => exact both.1 prior
      | inr own => rw [own, both.2 own]
    · exact fun prior => all (Nat.lt_succ_of_lt prior)
    · intro own
      rw [← all (own ▸ Nat.lt_succ_self _), own]
  · refine List.nodup_append.mpr ⟨seen.nodup, nodup.filter _, ?_⟩
    intro slot member other new
    rintro rfl
    exact ((seen.mem slot).mp member).2.1.ne ((here slot).mp (List.mem_of_mem_filter new)).2
  · rw [List.mem_append, seen.mem, selected, List.mem_filter, here, left, Bool.and_eq_true,
      Bool.not_eq_true', Nat.lt_succ_iff_lt_or_eq]
    constructor
    · rintro (⟨found, before, wants⟩ | ⟨⟨found, own⟩, unchosen, wants⟩)
      · exact ⟨⟨found, fun own => absurd own before.ne⟩, .inl before, wants⟩
      · exact ⟨⟨found, fun _ => unchosen⟩, .inr own, wants⟩
    · rintro ⟨⟨found, unchosen⟩, before | own, wants⟩
      · exact .inl ⟨found, before, wants⟩
      · exact .inr ⟨⟨found, own⟩, unchosen own, wants⟩

theorem scanFrom_zero {steps : Nat} (some : 0 < steps) (list : List ItemDataInfo) :
    scanFrom chosen wanted steps 0 mdb list = .ok (mdb, list) := by
  obtain ⟨steps, rfl⟩ := Nat.exists_eq_succ_of_ne_zero some.ne'
  rw [scanFrom, if_pos rfl]

theorem Scanned.passEmpty (ofChoice : ∀ index, OfContents (choice index))
    (ofWanted : OfContents wanted) (chains : Nat)
    (seen : Scanned start layout choice wanted index mdb relaid slots) :
    ∃ after more, start.listed more = start.listed slots ∧
      Scanned start layout choice wanted (mdb.passEmpty chains index) mdb after more ∧
      index ≤ mdb.passEmpty chains index ∧
      mdb.passEmpty chains index ≤ index + chains := by
  induction chains generalizing index relaid slots with
  | zero => exact ⟨relaid, slots, rfl, seen, le_rfl, le_rfl⟩
  | succ chains ih =>
    rw [passEmpty]
    by_cases empty : mdb.hashtable index = 0
    · rw [if_pos empty]
      obtain ⟨next, after, more, step, further⟩ := seen.chain ofChoice ofWanted
      rw [empty, scanFrom_zero (by unfold walkLimit; omega)] at step
      obtain ⟨rfl, same⟩ := Prod.mk.inj (Except.ok.inj step)
      obtain ⟨last, rest, equal, all, above, below⟩ := ih further
      exact ⟨last, rest, equal.trans same.symm, all, by omega, by omega⟩
    · rw [if_neg empty]
      exact ⟨relaid, slots, rfl, seen, le_rfl, Nat.le_add_right _ _⟩

end MdbManager

end Tair.Mdb
