/-
Searches come to an end. A chain has no more items than there are places for items, so that a
search along it ends within its limit, and what is stored is what a search for its own key finds.
-/

import Tair.Mdb.Operations

namespace Tair.Mdb

open MdbManager Tair.Common Tair.Library

/-! ### Chains are short -/

def Slot.Placed (slot : Slot) : Prop := slot.page < 2 ^ 16 ∧ slot.offset < 2 ^ 16

theorem placed_of_link {id : Nat} {slot : Slot} (leads : link id = some slot) : slot.Placed := by
  obtain ⟨-, rfl⟩ := link_eq_some.mp leads
  exact ⟨Nat.mod_lt _ (by decide), Nat.mod_lt _ (by decide)⟩

theorem length_le_square {nodes : List Slot} {bound : Nat} (nodup : nodes.Nodup)
    (placed : ∀ slot ∈ nodes, slot.page < bound ∧ slot.offset < bound) :
    nodes.length ≤ bound * bound := by
  have inside : nodes.toFinset ⊆ (Finset.range bound ×ˢ Finset.range bound).image fun place =>
      (⟨place.1, place.2⟩ : Slot) := by
    intro slot member
    obtain ⟨page, offset⟩ := placed slot (List.mem_toFinset.mp member)
    exact Finset.mem_image.mpr ⟨(slot.page, slot.offset),
      Finset.mem_product.mpr ⟨Finset.mem_range.mpr page, Finset.mem_range.mpr offset⟩, rfl⟩
  calc nodes.length = nodes.toFinset.card := (List.toFinset_card_of_nodup nodup).symm
    _ ≤ _ := Finset.card_le_card inside
    _ ≤ (Finset.range bound ×ˢ Finset.range bound).card := Finset.card_image_le
    _ = bound * bound := by rw [Finset.card_product, Finset.card_range]

theorem length_le_of_placed {nodes : List Slot} (nodup : nodes.Nodup)
    (placed : ∀ slot ∈ nodes, slot.Placed) : nodes.length ≤ 2 ^ 32 :=
  length_le_square nodup placed

namespace MdbManager

variable {mdb : MdbManager} {key : List UInt8} {nodes : List Slot}

theorem placed_of_chain {pos : Nat} (chain : Chain mdb.chainNext (link pos) nodes) :
    ∀ slot ∈ nodes, slot.Placed := by
  induction nodes generalizing pos with
  | nil =>
    intro slot member
    cases member
  | cons head rest ih =>
    obtain ⟨starts, linked⟩ := chain
    intro slot member
    cases List.mem_cons.mp member with
    | inl same =>
      rw [same]
      exact placed_of_link starts
    | inr behind => exact ih linked slot behind

theorem findFrom_ends {steps pos : Nat} {prior : Option Slot}
    (chain : Chain mdb.chainNext (link pos) nodes) (short : nodes.length < steps) :
    ∃ result, mdb.findFrom key steps pos prior = .ok result := by
  induction steps generalizing pos prior nodes with
  | zero => exact absurd short (Nat.not_lt_zero _)
  | succ steps ih =>
    unfold findFrom
    split_ifs with ends hit
    · exact ⟨_, rfl⟩
    · exact ⟨_, rfl⟩
    · cases nodes with
      | nil => exact absurd (link_eq_none.mp chain) ends
      | cons head rest =>
        obtain ⟨starts, linked⟩ := chain
        obtain ⟨-, rfl⟩ := link_eq_some.mp starts
        exact ih linked (Nat.lt_of_succ_lt_succ short)

def Stored (manager : MdbManager) (slot : Slot) : Prop :=
  manager.find (manager.items slot).key = .ok (some slot)

end MdbManager

namespace Sound

variable {mdb : MdbManager} {layout : Layout} {held : Option Slot} {opened : Option Nat}
  {slot : Slot}

theorem findWithPrior_ends (sound : Sound mdb layout held opened) (key : List UInt8) :
    ∃ result, mdb.findWithPrior key = .ok result := by
  obtain ⟨nodes, chain, nodup, -⟩ := sound.chains (.hash (mdb.getBucketIndex key))
  have short := length_le_of_placed nodup (placed_of_chain chain)
  refine findFrom_ends chain ?_
  unfold walkLimit
  omega

theorem find_ends (sound : Sound mdb layout held opened) (key : List UInt8) :
    ∃ result, mdb.find key = .ok result := by
  obtain ⟨result, found⟩ := sound.findWithPrior_ends key
  unfold MdbManager.find
  rw [found]
  exact ⟨_, rfl⟩

theorem live_of_find {key : List UInt8} (sound : Sound mdb layout none none)
    (search : mdb.find key = .ok (some slot)) : layout.Live slot := by
  cases sound.find search with
  | present _ found _ => exact found

theorem stored_iff (sound : Sound mdb layout none none) : mdb.Stored slot ↔ layout.Live slot := by
  unfold Stored
  constructor
  · exact sound.live_of_find
  · intro found
    obtain ⟨result, searched⟩ := sound.find_ends (mdb.items slot).key
    cases sound.find searched with
    | absent differ => exact absurd rfl (differ slot found)
    | present other otherFound same =>
      rw [searched, sound.settled.distinct other slot otherFound found same]

theorem remove_ends (sound : Sound mdb layout held opened) (slot : Slot) :
    ∃ next, mdb.remove slot = .ok next := by
  obtain ⟨result, found⟩ := sound.findWithPrior_ends (mdb.items slot).key
  unfold MdbManager.remove
  rw [found]
  exact ⟨_, rfl⟩

theorem removeItem_ends (sound : Sound mdb layout held opened) (slot : Slot) :
    ∃ next, mdb.removeItem slot = .ok next := by
  have booked := sound.alike (Alike.bookGone mdb (mdb.items slot))
  obtain ⟨unhashed, gone⟩ := booked.remove_ends slot
  unfold MdbManager.removeItem
  dsimp only
  rw [gone]
  exact ⟨_, rfl⟩

end Sound

end Tair.Mdb
