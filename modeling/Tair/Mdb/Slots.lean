/-
How slots change hands. Entering and leaving the hash table, the lists and the free slots of a
page each change the layout at one slot and keep the memory sound.
-/

import Tair.Library.Machine
import Tair.Mdb.Layout

namespace Tair.Mdb

open MdbManager Function Tair.Library

namespace Layout

variable {layout : Layout} {slot other : Slot}

def rehash (layout : Layout) (slot : Slot) (chain : Option ChainId) : Layout :=
  { layout with chain := Function.update layout.chain slot chain }

def relist (layout : Layout) (slot : Slot) (list : Option (Nat × Nat)) : Layout :=
  { layout with list := Function.update layout.list slot list }

theorem rehash_self (chain : Option ChainId) : (layout.rehash slot chain).chain slot = chain :=
  update_self ..

theorem rehash_of_ne (chain : Option ChainId) (ne : other ≠ slot) :
    (layout.rehash slot chain).chain other = layout.chain other :=
  update_of_ne ne _ _

theorem relist_self (list : Option (Nat × Nat)) : (layout.relist slot list).list slot = list :=
  update_self ..

theorem relist_of_ne (list : Option (Nat × Nat)) (ne : other ≠ slot) :
    (layout.relist slot list).list other = layout.list other :=
  update_of_ne ne _ _

theorem live_rehash_of_ne (chain : Option ChainId) (ne : other ≠ slot) :
    (layout.rehash slot chain).Live other ↔ layout.Live other := by
  unfold Live
  rw [rehash_of_ne chain ne]

theorem live_rehash {chain : Option ChainId} (unhashed : ∀ bucket, chain ≠ some (.hash bucket)) :
    (layout.rehash slot chain).Live other ↔ layout.Live other ∧ other ≠ slot := by
  by_cases same : other = slot
  · subst same
    constructor
    · intro found
      obtain ⟨bucket, placed⟩ := found
      rw [rehash_self] at placed
      exact absurd placed (unhashed bucket)
    · intro both
      exact absurd rfl both.2
  · rw [live_rehash_of_ne chain same]
    constructor
    · intro found
      exact ⟨found, same⟩
    · intro both
      exact both.1

theorem live_rehash_none :
    (layout.rehash slot none).Live other ↔ layout.Live other ∧ other ≠ slot :=
  live_rehash (fun _ => by simp)

end Layout

/-! ### The layout changes at one slot -/

namespace Settled

variable {mdb : MdbManager} {layout : Layout} {held : Option Slot} {slot : Slot}
  {slab area bucket : Nat}

theorem ne_of_unheld {other : Slot} (unheld : some slot ≠ some other) : other ≠ slot :=
  fun same => unheld (congrArg some same.symm)

theorem notHeld_of_ne {other : Slot} (heldOr : held = none ∨ held = some slot)
    (ne : some slot ≠ some other) : held ≠ some other := by
  cases heldOr with
  | inl none => simp [none]
  | inr own =>
    rw [own]
    exact ne

/-- A held slot goes to another chain, or from its chain. -/
theorem rehash {chain : Option ChainId} (settled : Settled mdb layout held)
    (heldOr : held = none ∨ held = some slot)
    (hashed : ∀ bucket, chain = some (.hash bucket) → (mdb.items slot).Keyed ∧
      bucket = mdb.getBucketIndex (mdb.items slot).key ∧
      ∀ other, layout.Live other → (mdb.items other).key ≠ (mdb.items slot).key)
    (freed : ∀ page, chain = some (.free page) → slot.page = page ∧ layout.list slot = none ∧
      ∀ slab, layout.owner page = some slab → slot.offset < (mdb.slabs slab).perSlab) :
    Settled mdb (layout.rehash slot chain) (some slot) := by
  have fresh : ∀ other, other ≠ slot → (layout.rehash slot chain).Live slot →
      (layout.rehash slot chain).Live other → (mdb.items other).key ≠ (mdb.items slot).key := by
    intro other ne found otherFound
    obtain ⟨bucket, there⟩ := found
    rw [Layout.rehash_self] at there
    exact (hashed bucket there).2.2 other ((Layout.live_rehash_of_ne _ ne).mp otherFound)
  refine ⟨settled.owned, settled.ids, settled.listed, ?_, ?_, ?_, ?_, ?_, ?_⟩
  · intro other slab area onList unheld
    obtain ⟨sameArea, found⟩ := settled.live other slab area onList (notHeld_of_ne heldOr unheld)
    exact ⟨sameArea, (Layout.live_rehash_of_ne _ (ne_of_unheld unheld)).mpr found⟩
  · intro other found unheld
    rw [Layout.live_rehash_of_ne _ (ne_of_unheld unheld)] at found
    exact settled.onList other found (notHeld_of_ne heldOr unheld)
  · intro other index there
    by_cases same : other = slot
    · subst same
      rw [Layout.rehash_self] at there
      obtain ⟨keyed, home, -⟩ := hashed index there
      exact ⟨keyed, home⟩
    · rw [Layout.rehash_of_ne _ same] at there
      exact settled.hashed other index there
  · intro one two oneFound twoFound sameKey
    by_cases oneSlot : one = slot
    · by_cases twoSlot : two = slot
      · rw [oneSlot, twoSlot]
      · subst oneSlot
        exact absurd sameKey.symm (fresh two twoSlot oneFound twoFound)
    · by_cases twoSlot : two = slot
      · subst twoSlot
        exact absurd sameKey (fresh one oneSlot twoFound oneFound)
      · rw [Layout.live_rehash_of_ne _ oneSlot] at oneFound
        rw [Layout.live_rehash_of_ne _ twoSlot] at twoFound
        exact settled.distinct one two oneFound twoFound sameKey
  · intro other page there
    by_cases same : other = slot
    · subst same
      rw [Layout.rehash_self] at there
      exact freed page there
    · rw [Layout.rehash_of_ne _ same] at there
      exact settled.freed other page there
  · intro other slab owner inside off unheld
    rw [Layout.rehash_of_ne _ (ne_of_unheld unheld)]
    exact settled.kept other slab owner inside off (notHeld_of_ne heldOr unheld)

theorem unhash (settled : Settled mdb layout held) (heldOr : held = none ∨ held = some slot) :
    Settled mdb (layout.rehash slot none) (some slot) := by
  refine settled.rehash heldOr (fun bucket there => ?_) (fun page there => ?_)
  · cases there
  · cases there

/-- A slot of a slab that is not free goes to another list, or from its list, and is held. -/
theorem relist {list : Option (Nat × Nat)} (settled : Settled mdb layout held)
    (heldOr : held = none ∨ held = some slot) (owner : layout.owner slot.page = some slab)
    (inside : slot.offset < (mdb.slabs slab).perSlab)
    (listOf : ∀ ofSlab ofArea, list = some (ofSlab, ofArea) → ofSlab = slab)
    (notFree : ∀ page, layout.chain slot ≠ some (.free page)) :
    Settled mdb (layout.relist slot list) (some slot) := by
  refine ⟨settled.owned, settled.ids, ?_, ?_, ?_, settled.hashed, settled.distinct, ?_, ?_⟩
  · intro other ofSlab ofArea there
    by_cases same : other = slot
    · subst same
      rw [Layout.relist_self] at there
      rw [listOf ofSlab ofArea there]
      exact ⟨owner, inside⟩
    · rw [Layout.relist_of_ne _ same] at there
      exact settled.listed other ofSlab ofArea there
  · intro other ofSlab ofArea there unheld
    rw [Layout.relist_of_ne _ (ne_of_unheld unheld)] at there
    exact settled.live other ofSlab ofArea there (notHeld_of_ne heldOr unheld)
  · intro other found unheld
    rw [Layout.relist_of_ne _ (ne_of_unheld unheld)]
    exact settled.onList other found (notHeld_of_ne heldOr unheld)
  · intro other page there
    have ne : other ≠ slot := by
      intro same
      rw [same] at there
      exact notFree page there
    rw [Layout.relist_of_ne _ ne]
    exact settled.freed other page there
  · intro other ofSlab ofOwner within off unheld
    rw [Layout.relist_of_ne _ (ne_of_unheld unheld)] at off
    exact settled.kept other ofSlab ofOwner within off (notHeld_of_ne heldOr unheld)

section

variable (settled : Settled mdb layout (some slot))

include settled

/-- A slot is held no longer once it is where its kind belongs. -/
theorem release (live : ∀ slab area, layout.list slot = some (slab, area) →
      area = (mdb.items slot).area ∧ layout.Live slot)
    (onList : layout.Live slot → layout.list slot ≠ none)
    (kept : layout.list slot = none → layout.chain slot = some (.free slot.page)) :
    Settled mdb layout none := by
  refine ⟨settled.owned, settled.ids, settled.listed, ?_, ?_, settled.hashed, settled.distinct,
    settled.freed, ?_⟩
  · intro other slab area there _
    by_cases same : slot = other
    · subst same
      exact live slab area there
    · exact settled.live other slab area there (mt Option.some.inj same)
  · intro other found _
    by_cases same : slot = other
    · subst same
      exact onList found
    · exact settled.onList other found (mt Option.some.inj same)
  · intro other slab owner inside off _
    by_cases same : slot = other
    · subst same
      exact kept off
    · exact settled.kept other slab owner inside off (mt Option.some.inj same)

theorem letGo (onList : layout.list slot = some (slab, (mdb.items slot).area))
    (found : layout.Live slot) : Settled mdb layout none := by
  refine settled.release (fun ofSlab area there => ?_) (fun _ off => ?_) (fun off => ?_)
  · cases onList.symm.trans there
    exact ⟨rfl, found⟩
  · cases onList.symm.trans off
  · cases onList.symm.trans off

theorem hash (onList : layout.list slot = some (slab, (mdb.items slot).area))
    (keyed : (mdb.items slot).Keyed)
    (fresh : ∀ other, layout.Live other → (mdb.items other).key ≠ (mdb.items slot).key) :
    Settled mdb (layout.rehash slot
      (some (.hash (mdb.getBucketIndex (mdb.items slot).key)))) none := by
  refine (settled.rehash (Or.inr rfl) (fun bucket there => ?_) (fun page there => ?_)).letGo onList
    ⟨_, Layout.rehash_self _⟩
  · cases there
    exact ⟨keyed, rfl, fresh⟩
  · cases there

theorem free (owner : layout.owner slot.page = some slab)
    (inside : slot.offset < (mdb.slabs slab).perSlab) (off : layout.list slot = none) :
    Settled mdb (layout.rehash slot (some (.free slot.page))) none := by
  have freed : Settled mdb (layout.rehash slot (some (.free slot.page))) (some slot) := by
    refine settled.rehash (Or.inr rfl) (fun bucket there => ?_) (fun page there => ?_)
    · cases there
    · cases there
      refine ⟨rfl, off, fun ofSlab ofOwner => ?_⟩
      cases owner.symm.trans ofOwner
      exact inside
  refine freed.release (fun ofSlab area there => ?_) (fun found => ?_) (fun _ => ?_)
  · cases off.symm.trans there
  · obtain ⟨bucket, there⟩ := found
    rw [Layout.rehash_self] at there
    cases there
  · exact Layout.rehash_self _

end

end Settled

/-! ### Links and counters are a frame -/

namespace Framed

variable (mdb : MdbManager)

theorem linkItem (slab : Nat) (slot : Slot) (area : Nat) :
    Framed mdb (mdb.linkItem slab slot area) := by
  rw [linkItem_eq]
  rfl

theorem unlinkItem (slab : Nat) {slot : Slot} (apart : mdb.itemPrev slot ≠ some slot) :
    Framed mdb (mdb.unlinkItem slab slot) := by
  rw [unlinkItem_eq _ _ _ apart]
  rfl

theorem bypass (index : Nat) (found : Slot) (prior : Option Slot) :
    Framed mdb (mdb.bypass index found prior) := by
  rw [bypass_eq]
  rfl

theorem insert (slot : Slot) : Framed mdb (mdb.insert slot) := by
  rw [insert_eq]
  rfl

end Framed

namespace Sound

variable {mdb next : MdbManager} {layout : Layout} {held : Option Slot} {opened : Option Nat}
  {slot : Slot} {slab bucket page : Nat}

/-! ### The hash table -/

section

variable (sound : Sound mdb layout held opened)

include sound

theorem freeNrs_rehash {chain : Option ChainId} (before : layout.chain slot ≠ some (.free page))
    (after : chain ≠ some (.free page)) (owner : layout.owner page = some slab) :
    (mdb.pages page).freeNr = tallyOn (Finset.range (mdb.slabs slab).perSlab)
      (fun offset => (layout.rehash slot chain).chain ⟨page, offset⟩) (some (.free page)) := by
  rw [sound.freeNrs page slab owner]
  symm
  apply TallyOn.tallyOn_congr
  intro offset inside
  by_cases same : (⟨page, offset⟩ : Slot) = slot
  · rw [same, Layout.rehash_self]
    exact iff_of_false after before
  · rw [Layout.rehash_of_ne chain same]

theorem counted_unhash (found : layout.Live slot) :
    ∃ items : Finset Slot, (∀ other, other ∈ items ↔ (layout.rehash slot none).Live other) ∧
      mdb.itemCount - 1 = items.card := by
  obtain ⟨items, members, count⟩ := sound.counted
  have inside : slot ∈ items := (members slot).mpr found
  have pos := Finset.card_pos.mpr ⟨slot, inside⟩
  refine ⟨items.erase slot, ?_, ?_⟩
  · intro other
    rw [Finset.mem_erase, members, Layout.live_rehash_none, and_comm]
  · rw [count, Finset.card_erase_of_mem inside]
    omega

theorem counted_rehash {chain : Option ChainId} (notFound : ¬ layout.Live slot)
    (unhashed : ∀ bucket, chain ≠ some (.hash bucket)) :
    ∃ items : Finset Slot, (∀ other, other ∈ items ↔ (layout.rehash slot chain).Live other) ∧
      mdb.itemCount = items.card := by
  obtain ⟨items, members, count⟩ := sound.counted
  refine ⟨items, ?_, count⟩
  intro other
  rw [members, Layout.live_rehash unhashed]
  constructor
  · intro found
    refine ⟨found, ?_⟩
    intro same
    rw [same] at found
    exact notFound found
  · intro both
    exact both.1

theorem bypass {before after : List Slot} (placed : layout.chain slot = some (.hash bucket))
    (heldOr : held = none ∨ held = some slot)
    (chain : Chain mdb.chainNext (mdb.chainFirst (.hash bucket)) (before ++ slot :: after))
    (nodup : (before ++ slot :: after).Nodup) :
    Sound (mdb.bypass bucket slot before.getLast?) (layout.rehash slot none) (some slot)
      opened := by
  have chains := sound.chains.bypass chain nodup
  have settled := (Framed.bypass mdb bucket slot before.getLast?).settled
    (sound.settled.unhash heldOr)
  rw [bypass_eq] at chains settled ⊢
  refine ⟨{ sound.fits with }, settled, ?_, chains,
    ?_, ?_, ?_, ?_, sound.counted_unhash ⟨bucket, placed⟩⟩
  · exact sound.items.congr (fun _ _ => ⟨rfl, rfl⟩) (fun _ => rfl) (fun _ => rfl)
  · exact sound.pages.congr (fun _ _ => ⟨rfl, rfl⟩) (fun _ => rfl)
  · exact sound.counts.congr rfl (fun _ => rfl)
  · intro page slab owner
    apply sound.freeNrs_rehash _ _ owner
    · rw [placed]
      simp
    · simp
  · intro other off unheld
    exact sound.blank other off (Settled.notHeld_of_ne heldOr unheld)

/-- An item is found under its own key, and it is the one that goes. -/
theorem remove (found : layout.Live slot) (heldOr : held = none ∨ held = some slot)
    (gone : mdb.remove slot = .ok next) :
    Sound next (layout.rehash slot none) (some slot) opened ∧ Framed mdb next ∧
      ∀ other ≠ slot, mdb.chainNext other ≠ some slot →
        next.chainNext other = mdb.chainNext other := by
  obtain ⟨bucket, placed⟩ := found
  obtain ⟨keyed, index⟩ := sound.settled.hashed slot bucket placed
  have own : mdb.hasKey slot (mdb.items slot).key = true := by
    rw [hasKey_iff]
    exact ⟨keyed.key_length.symm, rfl⟩
  unfold MdbManager.remove at gone
  obtain ⟨result, search, rfl⟩ := ok_of_map gone
  obtain ⟨nodes, chain, nodup, members⟩ := sound.chains (.hash bucket)
  unfold findWithPrior at search
  rw [← index] at search ⊢
  cases findFrom_search chain search with
  | absent differ =>
    have miss := differ slot ((members slot).mpr placed)
    rw [own] at miss
    cases miss
  | found before after other split same =>
    have there : layout.chain other = some (.hash bucket) := by
      rw [← members, split]
      exact List.mem_append_right _ List.mem_cons_self
    have isSlot : other = slot := by
      apply sound.settled.distinct other slot ⟨bucket, there⟩ ⟨bucket, placed⟩
      rw [((hasKey_iff _ _ _).mp same).2]
    subst isSlot
    rw [split] at chain nodup
    rw [Option.or_none]
    refine ⟨sound.bypass placed heldOr chain nodup, Framed.bypass mdb _ _ _, ?_⟩
    intro node ne apart
    have notPrior : before.getLast? ≠ some node := by
      intro last
      obtain ⟨init, rfl⟩ := List.getLast?_eq_some_iff.mp last
      rw [List.append_assoc] at chain
      exact apart chain.next_eq
    change (mdb.bypass bucket other before.getLast?).chainNext node = _
    rw [bypass_eq]
    unfold chainNext
    dsimp only
    rw [if_neg (Ne.symm ne), if_neg notPrior]

end

theorem insert (sound : Sound mdb layout (some slot) opened)
    (onList : layout.list slot = some (slab, (mdb.items slot).area))
    (unhashed : layout.chain slot = none) (keyed : (mdb.items slot).Keyed)
    (fresh : ∀ other, layout.Live other → (mdb.items other).key ≠ (mdb.items slot).key) :
    Sound (mdb.insert slot) (layout.rehash slot
      (some (.hash (mdb.getBucketIndex (mdb.items slot).key)))) none opened := by
  obtain ⟨owner, inside⟩ := sound.settled.listed slot slab _ onList
  have chains := sound.chains.insert (sound.settled.ids slot slab owner inside).link_eq unhashed
  have settled := (Framed.insert mdb slot).settled (sound.settled.hash onList keyed fresh)
  have notFound : ¬ layout.Live slot := by
    intro found
    exact fresh slot found rfl
  rw [insert_eq] at chains settled ⊢
  refine ⟨{ sound.fits with }, settled, ?_, chains,
    ?_, ?_, ?_, ?_, ?_⟩
  · exact sound.items.congr (fun _ _ => ⟨rfl, rfl⟩) (fun _ => rfl) (fun _ => rfl)
  · exact sound.pages.congr (fun _ _ => ⟨rfl, rfl⟩) (fun _ => rfl)
  · exact sound.counts.congr rfl (fun _ => rfl)
  · intro page slab owner
    apply sound.freeNrs_rehash _ _ owner
    · rw [unhashed]
      simp
    · simp
  · intro other off _
    apply sound.blank other off
    intro own
    cases own
    cases onList.symm.trans off
  · obtain ⟨found, members, count⟩ := sound.counted
    refine ⟨Insert.insert slot found, ?_, ?_⟩
    · intro other
      rw [Finset.mem_insert, members]
      by_cases same : other = slot
      · subst same
        exact iff_of_true (Or.inl rfl) ⟨_, Layout.rehash_self _⟩
      · rw [Layout.live_rehash_of_ne _ same]
        constructor
        · intro either
          exact either.resolve_left same
        · exact Or.inr
    · dsimp only
      rw [count, Finset.card_insert_of_notMem (fun member => notFound ((members slot).mp member))]
      push_cast
      rfl

/-! ### Lists of items -/

theorem unlinkItem (sound : Sound mdb layout held opened) (heldOr : held = none ∨ held = some slot)
    (onList : layout.list slot = some (slab, (mdb.items slot).area)) :
    Sound (mdb.unlinkItem slab slot) (layout.relist slot none) (some slot) opened := by
  obtain ⟨owner, inside⟩ := sound.settled.listed slot slab _ onList
  have apart := sound.items.threaded.backward.next_ne onList
  have framed := Framed.unlinkItem mdb slab apart
  have lists := sound.items.unlinkItem (sound.settled.ids slot slab owner inside) onList
  have settled : Settled mdb (layout.relist slot none) (some slot) := by
    apply sound.settled.relist heldOr owner inside
    · intro ofSlab ofArea none
      cases none
    · intro page free
      cases onList.symm.trans (sound.settled.freed slot page free).2.1
  refine ⟨framed.fits sound.fits, framed.settled settled, lists, ?_, ?_, ?_, ?_, ?_, ?_⟩
  all_goals rw [unlinkItem_eq _ _ _ apart]
  · exact sound.chains.congr (fun _ _ => rfl) rfl (fun _ => rfl)
  · exact sound.pages.congr (fun _ _ => ⟨rfl, rfl⟩) (fun _ => rfl)
  · exact sound.counts.congr rfl (fun _ => rfl)
  · exact sound.freeNrs
  · intro other off unheld
    rw [Layout.relist_of_ne _ (Settled.ne_of_unheld unheld)] at off
    obtain ⟨prev, next⟩ := sound.blank other off (Settled.notHeld_of_ne heldOr unheld)
    -- the neighbours of a listed item are on its list
    have notPrev : mdb.itemPrev slot ≠ some other := by
      intro leads
      cases off.symm.trans (sound.items.threaded.backward.place_next onList leads)
    have notNext : mdb.itemNext slot ≠ some other := by
      intro leads
      cases off.symm.trans (sound.items.threaded.forward.place_next onList leads)
    dsimp only
    rw [if_neg notPrev, if_neg notNext]
    exact ⟨prev, next⟩
  · exact sound.counted

theorem linkItem (sound : Sound mdb layout (some slot) opened) (area : Nat)
    (owner : layout.owner slot.page = some slab)
    (inside : slot.offset < (mdb.slabs slab).perSlab) (off : layout.list slot = none)
    (notFree : ∀ page, layout.chain slot ≠ some (.free page)) :
    Sound (mdb.linkItem slab slot area) (layout.relist slot (some (slab, area))) (some slot)
      opened := by
  have framed := Framed.linkItem mdb slab slot area
  have settled : Settled mdb (layout.relist slot (some (slab, area))) (some slot) := by
    apply sound.settled.relist (Or.inr rfl) owner inside _ notFree
    intro ofSlab ofArea same
    cases same
    rfl
  refine ⟨framed.fits sound.fits, framed.settled settled,
    sound.items.linkItem (sound.settled.ids slot slab owner inside) off, ?_, ?_, ?_, ?_, ?_, ?_⟩
  all_goals rw [linkItem_eq]
  · exact sound.chains.congr (fun _ _ => rfl) rfl (fun _ => rfl)
  · exact sound.pages.congr (fun _ _ => ⟨rfl, rfl⟩) (fun _ => rfl)
  · exact sound.counts.congr rfl (fun _ => rfl)
  · exact sound.freeNrs
  · intro other there unheld
    have ne := Settled.ne_of_unheld unheld
    rw [Layout.relist_of_ne _ ne] at there
    obtain ⟨prev, next⟩ := sound.blank other there unheld
    have notHead : mdb.listHead (slab, area) ≠ some other := by
      intro starts
      cases there.symm.trans (sound.items.threaded.forward.place_first starts)
    dsimp only
    rw [if_neg notHead, if_neg (Ne.symm ne), if_neg (Ne.symm ne)]
    exact ⟨prev, next⟩
  · exact sound.counted

theorem updateItem (sound : Sound mdb layout none opened) (area : Nat)
    (onList : layout.list slot = some (slab, (mdb.items slot).area)) :
    Sound (mdb.updateItem slab slot area) (layout.relist slot (some (slab, area))) (some slot)
        opened ∧
      Framed mdb (mdb.updateItem slab slot area) := by
  obtain ⟨owner, inside⟩ := sound.settled.listed slot slab _ onList
  have framed := Framed.unlinkItem mdb slab (sound.items.threaded.backward.next_ne onList)
  have unlinked := sound.unlinkItem (Or.inl rfl) onList
  have notFree : ∀ page, layout.chain slot ≠ some (.free page) := by
    intro page free
    cases onList.symm.trans (sound.settled.freed slot page free).2.1
  rw [← framed.perSlab slab] at inside
  have linked := unlinked.linkItem area owner inside (Layout.relist_self _) notFree
  have twice : (layout.relist slot none).relist slot (some (slab, area)) =
      layout.relist slot (some (slab, area)) := by
    unfold Layout.relist
    dsimp only
    rw [update_idem]
  rw [twice] at linked
  exact ⟨linked, framed.trans (Framed.linkItem _ slab slot area)⟩

theorem modifyItem {change : MdbItem → MdbItem} (sound : Sound mdb layout held opened) (slot : Slot)
    (links : ∀ item, (change item).hNext = item.hNext ∧ (change item).prev = item.prev ∧
      (change item).next = item.next)
    (ids : ∀ slab size, IdOf slab size slot (mdb.items slot).itemId →
      IdOf slab size slot (change (mdb.items slot)).itemId)
    (area : layout.list slot ≠ none → held ≠ some slot →
      (change (mdb.items slot)).area = (mdb.items slot).area)
    (keys : layout.Live slot → (change (mdb.items slot)).keyLen = (mdb.items slot).keyLen ∧
      (change (mdb.items slot)).data = (mdb.items slot).data) :
    Sound (mdb.modifyItem slot change) layout held opened := by
  rw [modifyItem_eq]
  apply sound.rewrite
  · intro other
    by_cases same : slot = other
    · simp only [if_pos same]
      exact links _
    · simp only [if_neg same, and_self]
  · intro other slab size
    by_cases same : slot = other
    · subst same
      simp only [if_true]
      exact ids slab size
    · simp only [if_neg same, imp_self]
  · intro other onList unheld
    by_cases same : slot = other
    · subst same
      simp only [if_true]
      exact area onList unheld
    · simp only [if_neg same]
  · intro other found
    by_cases same : slot = other
    · subst same
      simp only [if_true]
      exact keys found
    · simp only [if_neg same, and_self]

theorem letGo (sound : Sound mdb layout (some slot) opened)
    (onList : layout.list slot = some (slab, (mdb.items slot).area))
    (found : layout.Live slot) : Sound mdb layout none opened := by
  refine ⟨sound.fits, sound.settled.letGo onList found, sound.items, sound.chains, sound.pages,
    sound.counts, sound.freeNrs, ?_, sound.counted⟩
  intro other off _
  apply sound.blank other off
  intro own
  cases own
  cases onList.symm.trans off

end Sound

end Tair.Mdb
