/-
The operations on a key keep the memory intact, and what can be found afterwards is what
could be found before, but for the key of the operation and for an item that was evicted.
-/

import Tair.Mdb.Runs
import Tair.Mdb.Upkeep

namespace Tair.Mdb

open MdbManager Tair.Common Tair.Library

/-! ### Finding an item -/

namespace Sound

variable {mdb next : MdbManager} {layout : Layout} {slot : Slot} {key : List UInt8}

inductive Found (manager : MdbManager) (layout : Layout) (key : List UInt8) : Option Slot → Prop
  | absent (differ : ∀ slot, layout.Live slot → (manager.items slot).key ≠ key) :
      Found manager layout key none
  | present (slot : Slot) (found : layout.Live slot) (same : (manager.items slot).key = key) :
      Found manager layout key (some slot)

theorem find {result : Option Slot} (sound : Sound mdb layout none none)
    (searched : mdb.find key = .ok result) : Found mdb layout key result := by
  unfold MdbManager.find at searched
  obtain ⟨answer, search, rfl⟩ := ok_of_map searched
  obtain ⟨nodes, chain, -, members⟩ := sound.chains (.hash (mdb.getBucketIndex key))
  unfold findWithPrior at search
  cases findFrom_search chain search with
  | absent differ =>
    apply Found.absent
    intro slot found same
    obtain ⟨bucket, chained⟩ := found
    obtain ⟨keyed, index⟩ := sound.settled.hashed slot bucket chained
    rw [index, same] at chained
    have miss := differ slot ((members slot).mpr chained)
    have hit : mdb.hasKey slot key = true := by
      rw [hasKey_iff]
      exact ⟨by rw [← same, keyed.key_length], same⟩
    rw [miss] at hit
    cases hit
  | found before after slot split same =>
    have chained := (members slot).mp (by
      rw [split]
      exact List.mem_append_right _ List.mem_cons_self)
    exact Found.present slot ⟨_, chained⟩ ((hasKey_iff _ _ _).mp same).2

end Sound

/-! ### Writing an item -/

def fillItem (key data : DataEntry) (version : UInt16) (expired : Int32) (oldFlag : Nat)
    (now : UInt32) (item : MdbItem) : MdbItem :=
  let keyLen := key.data.length % 2 ^ 12
  let dataLen := data.data.length % 2 ^ 20
  { item with
    keyLen
    dataLen
    updateTime := now
    version
    exptime := if 0 < expired then exptimeOf expired now else item.exptime
    itemId := setItemFlags item.itemId (data.dataMeta.flag.toNat ||| oldFlag)
    data := key.data.take keyLen ++ (data.data.take dataLen ++ item.data.drop (keyLen + dataLen)) }

theorem mergedKey_mod_eq {key : List UInt8} (merged : MergedKey key) :
    key.length % 2 ^ 12 = key.length := by
  obtain ⟨-, short⟩ := merged
  unfold tairMaxKeySize at short
  omega

section
variable {key data : DataEntry} {version : UInt16} {expired : Int32} {oldFlag : Nat} {now : UInt32}
  {item : MdbItem}

theorem fillItem_key (merged : MergedKey key.data) :
    (fillItem key data version expired oldFlag now item).key = key.data := by
  unfold MdbItem.key fillItem
  dsimp only
  rw [mergedKey_mod_eq merged, List.take_length, List.take_left]

theorem fillItem_value (merged : MergedKey key.data) (small : data.data.length < 2 ^ 20) :
    (fillItem key data version expired oldFlag now item).value = data.data := by
  unfold MdbItem.value fillItem
  dsimp only
  rw [mergedKey_mod_eq merged, Nat.mod_eq_of_lt small, List.take_length, List.take_length, List.drop_left,
    List.take_left]

theorem fillItem_keyed (merged : MergedKey key.data) :
    (fillItem key data version expired oldFlag now item).Keyed := by
  have whole := mergedKey_mod_eq merged
  obtain ⟨long, -⟩ := merged
  refine ⟨?_, ?_⟩
  · change 2 ≤ key.data.length % 2 ^ 12
    omega
  · change key.data.length % 2 ^ 12 ≤ (key.data.take (key.data.length % 2 ^ 12) ++ _).length
    rw [whole, List.take_length, List.length_append]
    omega

end

namespace Sound

variable {mdb next : MdbManager} {layout : Layout} {slot : Slot} {slab : Nat}
  {key data : DataEntry} {version : UInt16} {expired : Int32} {oldFlag : Nat}
  {now evictNow : UInt32}

def Inherits (manager : MdbManager) (key data : DataEntry) (now : UInt32) (old : MdbItem) : Prop :=
  old.exptime = 0 ∨ ∃ evicted, manager.putVictim key data now = some evicted ∧
    (manager.items evicted).exptime = old.exptime

/-- A new item under a key that can not be found. `old` is what the slot held before. -/
structure Stores (manager : MdbManager) (layout : Layout) (next : MdbManager) (relaid : Layout)
    (slot : Slot) (old item : MdbItem) : Prop where
  sound : Sound next relaid none none
  unset : Unset next relaid
  live : relaid.Live slot
  body : (next.items slot).body = item.body
  flags : itemFlags old.itemId = 0
  shrinks : ∀ other, other ≠ slot → relaid.Live other →
    layout.Live other ∧ (next.items other).body = (manager.items other).body

structure Entered (manager : MdbManager) (layout : Layout) (next : MdbManager) (relaid : Layout)
    (slot : Slot) (item : MdbItem) : Prop where
  kept : ∀ other, other ≠ slot → layout.Live other → relaid.Live other
  books : (¬ layout.Live slot ∧ next.areaStat = (manager.bookStored item).areaStat) ∨
    (layout.Live slot ∧
      next.areaStat = ((manager.bookGone (manager.items slot)).bookStored item).areaStat)

theorem store {entry : DataEntry} (sound : Sound mdb layout none none)
    (unset : Unset mdb layout) (merged : MergedKey key.data)
    (absent : ∀ slot, layout.Live slot → (mdb.items slot).key ≠ key.data)
    (stored : mdb.store key data version expired oldFlag now evictNow = .ok (next, entry)) :
    ∃ relaid slot old, Inherits mdb key data evictNow old ∧
      Stores mdb layout next relaid slot old
        (fillItem key data version expired oldFlag now old) ∧
      Entered mdb layout next relaid slot
        (fillItem key data version expired oldFlag now old) := by
  unfold MdbManager.store at stored
  dsimp only at stored
  split at stored
  · cases stored
  · rename_i slab chosen
    have slabBound : slab < mdb.slabsCount :=
      List.mem_range.mp (List.mem_of_find?_eq_some chosen)
    obtain ⟨⟨given, slot, type⟩, alloc, rest⟩ := ok_of_bind stored
    obtain ⟨bare, lost, same⟩ := ok_of_map rest
    have allocation := sound.allocItem unset slabBound alloc
    obtain ⟨relaid, took, unchained, before⟩ := dropEvicted allocation lost
    have gone := allocation.books (areaStat_allocItem alloc) lost
    have notFound : ¬ relaid.Live slot := by
      intro found
      obtain ⟨bucket, chained⟩ := found
      cases unchained.symm.trans chained
    generalize isWritten : bare.writeItem slot key data version expired oldFlag now = wrote
      at same
    have isModified : bare.modifyItem slot
        (fillItem key data version expired oldFlag now) = wrote := isWritten
    have own : wrote.items slot =
        fillItem key data version expired oldFlag now (bare.items slot) := by
      rw [← isModified, items_modifyItem_self]
    have others : ∀ other, other ≠ slot → wrote.items other = bare.items other := by
      intro other ne
      rw [← isModified, items_modifyItem_of_ne _ _ ne]
    have filled : Sound wrote relaid (some slot) none := by
      rw [← isModified]
      refine took.sound.modifyItem slot ?_ ?_ ?_ ?_
      · intro item
        exact ⟨rfl, rfl, rfl⟩
      · intro slab size own
        exact own.setItemFlags _
      · intro _ unheld
        exact absurd rfl unheld
      · intro found
        exact absurd found notFound
    have keyIs : (wrote.items slot).key = key.data := by
      rw [own, fillItem_key merged]
    have keyed : (wrote.items slot).Keyed := by
      rw [own]
      exact fillItem_keyed merged
    have onList : relaid.list slot = some (slab, (wrote.items slot).area) := by
      rw [keyed.area_eq, keyIs]
      exact took.onList
    have fresh : ∀ other, relaid.Live other →
        (wrote.items other).key ≠ (wrote.items slot).key := by
      intro other found
      have ne : other ≠ slot := by
        intro same
        rw [same] at found
        exact notFound found
      obtain ⟨prior, body⟩ := took.shrinks other ne found
      rw [others other ne, keyIs, MdbItem.key_of_body body]
      exact absent other prior
    have inserted := filled.insert onList unchained keyed fresh
    cases same
    have books : Alike (wrote.insert slot)
        ((wrote.insert slot).bookStored (wrote.items slot)) :=
      Alike.areaStat _ _
    have frame := (Framed.insert wrote slot).trans books.framed
    have stats : (wrote.insert slot).areaStat = bare.areaStat := by
      rw [(Relinked.insert wrote slot).areaStat, ← isModified]
      rfl
    refine ⟨_, slot, bare.items slot, ?_, ⟨inserted.alike books, ?_, ⟨_, Layout.rehash_self _⟩,
      ?_, ?_, ?_⟩, ?_, ?_⟩
    · cases before with
      | inl free => exact Or.inl free.2.1
      | inr evicted =>
        refine Or.inr ⟨slot, ?_, evicted.2.2.2.symm⟩
        unfold putVictim
        rw [chosen]
        exact allocItem_victim alloc evicted.1
    · intro other off
      have ne : other ≠ slot := by
        intro same
        rw [same] at off
        cases onList.symm.trans off
      apply (MdbItem.unset_of_body (frame.body other)).mpr
      rw [others other ne]
      exact took.unset other off
    · exact (frame.body slot).trans (congrArg MdbItem.body own)
    · cases before with
      | inl free => exact free.2.2
      | inr evicted => exact evicted.2.2.1
    · intro other ne found
      rw [Layout.live_rehash_of_ne _ ne] at found
      obtain ⟨prior, body⟩ := took.shrinks other ne found
      refine ⟨prior, (frame.body other).trans ?_⟩
      rw [others other ne]
      exact body
    · intro other ne found
      rw [Layout.live_rehash_of_ne _ ne]
      exact took.kept other ne found
    · rw [← own]
      cases gone with
      | inl absent => exact Or.inl ⟨absent.1, bookStored_areaStat (stats.trans absent.2) _⟩
      | inr evicted => exact Or.inr ⟨evicted.1, bookStored_areaStat (stats.trans evicted.2) _⟩

end Sound

/-! ### Putting an item -/

/-- The version a put goes on from: that of the item it found, unless it has expired. -/
def oldVersion (found : Option MdbItem) (now : UInt32) : UInt16 :=
  match found with
  | none => 0
  | some item => if expired item now then 0 else item.version

def oldFlag (found : Option MdbItem) : Nat :=
  match found with
  | none => 0
  | some item => if isDeleted item.itemId then tairItemFlagDeleted else 0

def putVersion (key : DataEntry) (versionCare : Bool) (found : Option MdbItem) (now : UInt32) :
    UInt16 :=
  if versionCare then oldVersion found now + 1 else key.dataMeta.version

def VersionMismatch (key : DataEntry) (versionCare : Bool) (found : Option MdbItem)
    (now : UInt32) : Prop :=
  ∃ item, found = some item ∧ expired item now = false ∧ versionCare = true ∧
    key.dataMeta.version ≠ 0 ∧ item.version ≠ key.dataMeta.version

namespace MdbManager

variable {mdb next : MdbManager} {key data entry : DataEntry} {versionCare : Bool}
  {expired : Int32} {now evictNow : UInt32} {code : ReturnCode}

theorem storeNext_ok {old : UInt16} {flag : Nat}
    (stored : mdb.storeNext key data versionCare old expired flag now evictNow =
      .ok (next, code, entry)) :
    code = .success ∧ mdb.store key data (if versionCare then old + 1 else key.dataMeta.version)
      expired flag now evictNow = .ok (next, entry) := by
  unfold storeNext at stored
  obtain ⟨result, hit, same⟩ := ok_of_map stored
  cases same
  exact ⟨rfl, hit⟩

theorem store_parts {version : UInt16} {oldFlag : Nat}
    (stored : mdb.store key data version expired oldFlag now evictNow = .ok (next, entry)) :
    ∃ slab given slot type bare, entry.dataMeta.version = version ∧
      mdb.getSlabmng (key.data.length + data.data.length + mdbItemSize) = some slab ∧
      mdb.allocItem slab (keyArea key.data) evictNow = .ok (given, slot, type) ∧
      given.dropEvicted slot type = .ok bare ∧
      next = ((bare.writeItem slot key data version expired oldFlag now).insert slot).bookStored
        ((bare.writeItem slot key data version expired oldFlag now).items slot) := by
  unfold store at stored
  dsimp only at stored
  split at stored
  · cases stored
  · rename_i slab chosen
    obtain ⟨⟨given, slot, type⟩, alloc, rest⟩ := ok_of_bind stored
    obtain ⟨bare, lost, same⟩ := ok_of_map rest
    cases same
    refine ⟨slab, given, slot, type, bare, ?_, chosen, alloc, lost, rfl⟩
    unfold writeItem
    rw [items_modifyItem_self]

theorem doRemove_none (search : mdb.find key.data = .ok none) :
    mdb.doRemove key = .ok (mdb, .dataNotExist) := by
  unfold doRemove
  rw [search]
  rfl

theorem doRemove_some {slot : Slot} (search : mdb.find key.data = .ok (some slot))
    (gone : mdb.removeItem slot = .ok next) : mdb.doRemove key = .ok (next, .success) := by
  unfold doRemove
  rw [search]
  change _ <$> mdb.removeItem slot = _
  rw [gone]
  rfl

theorem doPut_cases (put : mdb.doPut key data versionCare expired now evictNow =
      .ok (next, code, entry)) :
    ∃ found, mdb.find key.data = .ok found ∧
      ((code = .versionError ∧ next = mdb ∧
          VersionMismatch key versionCare (found.map mdb.items) now) ∨
        (code = .success ∧ ¬ VersionMismatch key versionCare (found.map mdb.items) now ∧
          ∃ clean removal, mdb.doRemove key = .ok (clean, removal) ∧
            clean.store key data (putVersion key versionCare (found.map mdb.items) now) expired
              (oldFlag (found.map mdb.items)) now evictNow = .ok (next, entry))) := by
  unfold doPut at put
  obtain ⟨found, search, rest⟩ := ok_of_bind put
  refine ⟨found, search, ?_⟩
  cases found with
  | none =>
    obtain ⟨success, stored⟩ := storeNext_ok rest
    refine Or.inr ⟨success, ?_, mdb, _, doRemove_none search, stored⟩
    intro mismatch
    obtain ⟨item, same, -⟩ := mismatch
    cases same
  | some slot =>
    dsimp only at rest
    by_cases past : MdbManager.expired (mdb.items slot) now = true
    · rw [if_pos past] at rest
      obtain ⟨clean, gone, more⟩ := ok_of_bind rest
      obtain ⟨success, stored⟩ := storeNext_ok more
      refine Or.inr ⟨success, ?_, clean, _, doRemove_some search gone, ?_⟩
      · intro mismatch
        obtain ⟨item, same, notPast, -⟩ := mismatch
        cases same
        rw [past] at notPast
        cases notPast
      · unfold putVersion oldVersion oldFlag
        simp only [Option.map_some, if_pos past]
        exact stored
    · rw [if_neg past] at rest
      by_cases turned : versionCare ∧ key.dataMeta.version ≠ 0 ∧
          (mdb.items slot).version ≠ key.dataMeta.version
      · rw [if_pos turned] at rest
        cases rest
        exact Or.inl ⟨rfl, rfl, mdb.items slot, rfl, Bool.eq_false_iff.mpr past, turned⟩
      · rw [if_neg turned] at rest
        obtain ⟨clean, gone, more⟩ := ok_of_bind rest
        obtain ⟨success, stored⟩ := storeNext_ok more
        refine Or.inr ⟨success, ?_, clean, _, doRemove_some search gone, ?_⟩
        · intro mismatch
          obtain ⟨item, same, -, others⟩ := mismatch
          cases same
          exact turned others
        · unfold putVersion oldVersion oldFlag
          simp only [Option.map_some, if_neg past]
          exact stored

theorem doGet_cases {keyOut dataOut : DataEntry}
    (got : mdb.doGet key data now = .ok (next, code, keyOut, dataOut)) :
    ∃ found, mdb.find key.data = .ok found ∧
      ((found = none ∧ code = .dataNotExist ∧ next = mdb) ∨
        ∃ slot, found = some slot ∧
          ((MdbManager.expired (mdb.items slot) now = true ∧ code = .dataExpired ∧
              mdb.removeItem slot = .ok next) ∨
            (code = .success ∧ (keyOut, dataOut) = readItem (mdb.items slot) key data ∧
              next = mdb.updateItem (slabId (mdb.items slot).itemId) slot
                (mdb.items slot).area))) := by
  unfold doGet at got
  obtain ⟨found, search, rest⟩ := ok_of_bind got
  refine ⟨found, search, ?_⟩
  cases found with
  | none =>
    cases rest
    exact Or.inl ⟨rfl, rfl, rfl⟩
  | some slot =>
    refine Or.inr ⟨slot, rfl, ?_⟩
    dsimp only at rest
    split at rest
    · rename_i past
      obtain ⟨gone, removal, isAnswer⟩ := ok_of_map rest
      cases isAnswer
      exact Or.inl ⟨past, rfl, removal⟩
    · obtain ⟨-, answer⟩ := ok_of_check rest
      cases answer
      exact Or.inr ⟨rfl, rfl, rfl⟩

end MdbManager

namespace Sound

variable {mdb next : MdbManager} {layout : Layout} {slot : Slot} {key data entry : DataEntry}
  {versionCare : Bool} {expired : Int32} {now evictNow : UInt32} {code : ReturnCode}

/-! ### Reading and removing an item -/

theorem touch (sound : Sound mdb layout none none) (unset : Unset mdb layout)
    (found : layout.Live slot) :
    let touched := mdb.updateItem (slabId (mdb.items slot).itemId) slot
      (mdb.items slot).area
    Sound touched layout none none ∧ Unset touched layout ∧ Framed mdb touched := by
  obtain ⟨slab, onList, -, -, isSlab⟩ := sound.onList found
  rw [isSlab]
  obtain ⟨moved, framed⟩ := sound.updateItem (mdb.items slot).area onList
  have same : layout.relist slot (some (slab, (mdb.items slot).area)) = layout := by
    unfold Layout.relist
    rw [← onList, Function.update_eq_self]
  rw [same] at moved
  rw [← framed.area] at onList
  exact ⟨moved.letGo onList found, unset_framed framed unset, framed⟩

theorem doRemove (sound : Sound mdb layout none none) (unset : Unset mdb layout)
    (gone : mdb.doRemove key = .ok (next, code)) :
    ∃ relaid, Sound next relaid none none ∧ Unset next relaid ∧
      Shrinks mdb layout next relaid ∧
      ∀ slot, relaid.Live slot → (next.items slot).key ≠ key.data := by
  unfold MdbManager.doRemove at gone
  obtain ⟨found, search, rest⟩ := ok_of_bind gone
  cases sound.find search with
  | absent differ =>
    cases rest
    exact ⟨layout, sound, unset, Shrinks.refl mdb layout, differ⟩
  | present slot foundHere same =>
    obtain ⟨after, removal, isAnswer⟩ := ok_of_map rest
    cases isAnswer
    obtain ⟨relaid, removes⟩ := sound.removeItem unset foundHere removal
    refine ⟨relaid, removes.sound, removes.unset, removes.shrinks, ?_⟩
    intro other foundOther equal
    obtain ⟨prior, body⟩ := removes.shrinks other foundOther
    rw [MdbItem.key_of_body body, ← same] at equal
    rw [sound.settled.distinct other slot prior foundHere equal] at foundOther
    exact removes.gone foundOther

theorem doPut (sound : Sound mdb layout none none) (unset : Unset mdb layout)
    (merged : MergedKey key.data)
    (put : mdb.doPut key data versionCare expired now evictNow = .ok (next, code, entry)) :
    ∃ found, mdb.find key.data = .ok found ∧ Found mdb layout key.data found ∧
      ((code = .versionError ∧ next = mdb ∧
          VersionMismatch key versionCare (found.map mdb.items) now) ∨
        (code = .success ∧ ¬ VersionMismatch key versionCare (found.map mdb.items) now ∧
          entry.dataMeta.version = putVersion key versionCare (found.map mdb.items) now ∧
          ∃ clean removal, mdb.doRemove key = .ok (clean, removal) ∧
            ∃ relaid slot old, Inherits clean key data evictNow old ∧
              Stores mdb layout next relaid slot old
                (fillItem key data (putVersion key versionCare (found.map mdb.items) now) expired
                  (oldFlag (found.map mdb.items)) now old))) := by
  obtain ⟨found, search, out⟩ := doPut_cases put
  refine ⟨found, search, sound.find search, ?_⟩
  cases out with
  | inl turned => exact Or.inl turned
  | inr stored =>
    obtain ⟨success, accepted, clean, removal, removed, stored⟩ := stored
    obtain ⟨relaid, cleanSound, cleanUnset, fewer, absent⟩ := sound.doRemove unset removed
    obtain ⟨-, -, -, -, -, version, -⟩ := store_parts stored
    obtain ⟨final, place, old, inherits, stores, -⟩ :=
      cleanSound.store cleanUnset merged absent stored
    refine Or.inr ⟨success, accepted, version, clean, removal, removed, final, place,
      old, inherits, { stores with shrinks := ?_ }⟩
    intro other ne foundOther
    obtain ⟨between, body⟩ := stores.shrinks other ne foundOther
    obtain ⟨prior, before⟩ := fewer other between
    exact ⟨prior, body.trans before⟩

end Sound

end Tair.Mdb
