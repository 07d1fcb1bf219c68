/-
The chains of slots. The link `h_next` of a slot leads on in the chain of its hash bucket while
the slot is in use, and in the chain of free slots of its page while it is not.
-/

import Tair.Mdb.ItemLists

namespace Tair.Mdb

open MdbManager Function Tair.Library

inductive ChainId where
  | hash (bucket : Nat)
  | free (page : Nat)
deriving DecidableEq, Repr

namespace MdbManager

def chainNext (manager : MdbManager) (slot : Slot) : Option Slot := link (manager.items slot).hNext

def chainFirst (manager : MdbManager) : ChainId → Option Slot
  | .hash bucket => link (manager.hashtable bucket)
  | .free page => link (manager.pages page).freeHead

end MdbManager

def Chains (manager : MdbManager) (place : Slot → Option ChainId) : Prop :=
  Chained manager.chainNext manager.chainFirst place

namespace MdbManager

/-! ### Looking for a key -/

theorem hasKey_iff (mdb : MdbManager) (slot : Slot) (key : List UInt8) :
    mdb.hasKey slot key = true ↔
      (mdb.items slot).keyLen = key.length ∧ (mdb.items slot).key = key := by
  unfold hasKey
  rw [decide_eq_true_iff]

inductive Search (manager : MdbManager) (key : List UInt8) (prior : Option Slot)
    (nodes : List Slot) : Option (Slot × Option Slot) → Prop
  | absent (differ : ∀ slot ∈ nodes, manager.hasKey slot key = false) :
      Search manager key prior nodes none
  | found (before after : List Slot) (slot : Slot) (split : nodes = before ++ slot :: after)
      (same : manager.hasKey slot key = true) :
      Search manager key prior nodes (some (slot, before.getLast?.or prior))

theorem findFrom_search {mdb : MdbManager} {key : List UInt8} {nodes : List Slot}
    {steps pos : Nat} {prior : Option Slot} {result : Option (Slot × Option Slot)}
    (chain : Chain mdb.chainNext (link pos) nodes)
    (found : mdb.findFrom key steps pos prior = .ok result) :
    Search mdb key prior nodes result := by
  induction nodes generalizing steps pos prior with
  | nil =>
    have ends : pos = 0 := link_eq_none.mp chain
    cases steps with
    | zero => cases found
    | succ steps =>
      unfold findFrom at found
      rw [if_pos ends] at found
      cases found
      exact .absent (by simp)
  | cons node rest ih =>
    obtain ⟨starts, linked⟩ := chain
    obtain ⟨real, isNode⟩ := link_eq_some.mp starts
    cases steps with
    | zero => cases found
    | succ steps =>
      unfold findFrom at found
      rw [if_neg real, isNode] at found
      by_cases same : mdb.hasKey node key = true
      · rw [if_pos same] at found
        cases found
        exact .found [] rest node rfl same
      · rw [if_neg same] at found
        cases ih linked found with
        | absent differ =>
          apply Search.absent
          intro slot member
          cases List.mem_cons.mp member with
          | inl own => rw [own, Bool.eq_false_iff.mpr same]
          | inr more => exact differ slot more
        | found before after slot split hit =>
          have last : before.getLast?.or (some node) = (node :: before).getLast?.or prior := by
            rw [List.getLast?_cons]
            cases before.getLast? with
            | none => rfl
            | some last => rfl
          rw [last]
          exact .found (node :: before) after slot (by rw [split]; rfl) hit

/-! ### Entering and leaving a hash chain, all at once -/

variable (mdb : MdbManager)

theorem insert_eq (slot : Slot) : mdb.insert slot = { mdb with
    items := fun other => { mdb.items other with
      hNext := if slot = other then
          mdb.hashtable (mdb.getBucketIndex (mdb.items slot).key)
        else (mdb.items other).hNext }
    hashtable := update mdb.hashtable
      (mdb.getBucketIndex (mdb.items slot).key) (mdb.items slot).itemId
    itemCount := mdb.itemCount + 1 } := by
  unfold insert
  dsimp only
  rw [modifyItem_eq]
  congr 1
  funext other
  by_cases same : slot = other
  · simp only [if_pos same]
  · simp only [if_neg same]

theorem bypass_eq (index : Nat) (found : Slot) (prior : Option Slot) :
    mdb.bypass index found prior = { mdb with
      items := fun other => { mdb.items other with
        hNext := if found = other then 0
          else if prior = some other then (mdb.items found).hNext
          else (mdb.items other).hNext }
      hashtable := if prior = none then
          update mdb.hashtable index (mdb.items found).hNext
        else mdb.hashtable
      itemCount := mdb.itemCount - 1 } := by
  unfold bypass
  cases prior with
  | none =>
    dsimp only
    rw [modifyItem_eq]
    simp only [if_true, reduceCtorEq, if_false]
    congr 1
    funext other
    by_cases same : found = other
    · simp only [if_pos same]
    · simp only [if_neg same]
  | some before =>
    dsimp only
    rw [modifyItem_eq, modifyItem_eq]
    simp only [reduceCtorEq, if_false, Option.some.injEq]
    congr 1
    funext other
    by_cases same : found = other
    · by_cases prior : before = other
      · simp only [if_pos same, if_pos prior]
      · simp only [if_pos same, if_neg prior]
    · by_cases prior : before = other
      · simp only [if_neg same, if_pos prior]
      · simp only [if_neg same, if_neg prior]

end MdbManager

/-! ### Entering and leaving chains -/

namespace Chains

variable {mdb next : MdbManager} {place : Slot → Option ChainId} {slot : Slot}

theorem congr (chains : Chains mdb place)
    (links : ∀ slot, place slot ≠ none → (next.items slot).hNext = (mdb.items slot).hNext)
    (table : next.hashtable = mdb.hashtable)
    (heads : ∀ page, (next.pages page).freeHead = (mdb.pages page).freeHead) :
    Chains next place := by
  apply Chained.congr chains
  · intro slot index placed
    unfold chainNext
    rw [links slot (by rw [placed]; exact Option.some_ne_none index)]
  · intro index
    cases index with
    | hash bucket =>
      unfold chainFirst
      rw [table]
    | free page =>
      unfold chainFirst
      dsimp only
      rw [heads]
  · intro slot
    rfl

theorem insert (chains : Chains mdb place)
    (own : link (mdb.items slot).itemId = some slot) (notIn : place slot = none) :
    Chains (mdb.insert slot) (update place slot
      (some (.hash (mdb.getBucketIndex (mdb.items slot).key)))) := by
  have first : (mdb.insert slot).chainFirst
      (.hash (mdb.getBucketIndex (mdb.items slot).key)) = some slot := by
    rw [insert_eq]
    unfold chainFirst
    dsimp only
    rw [update_self, own]
  rw [insert_eq] at first ⊢
  apply Chained.push chains _ notIn first
  · intro other ne
    cases other with
    | hash bucket =>
      unfold chainFirst
      dsimp only
      rw [update_of_ne (fun same => ne (congrArg ChainId.hash same))]
    | free page => rfl
  · unfold chainNext
    dsimp only
    rw [if_pos rfl]
    rfl
  · intro other ne
    unfold chainNext
    dsimp only
    rw [if_neg (Ne.symm ne)]

theorem bypass {bucket : Nat} {before after : List Slot} (chains : Chains mdb place)
    (chain : Chain mdb.chainNext (mdb.chainFirst (.hash bucket)) (before ++ slot :: after))
    (nodup : (before ++ slot :: after).Nodup) :
    Chains (mdb.bypass bucket slot before.getLast?) (update place slot none) := by
  rw [bypass_eq]
  apply Chained.remove chains chain nodup rfl
  · unfold chainFirst
    dsimp only
    by_cases first : before.getLast? = none
    · rw [if_pos first, if_pos first, update_self]
      rfl
    · rw [if_neg first, if_neg first]
  · intro other ne
    cases other with
    | hash index =>
      unfold chainFirst
      dsimp only
      by_cases first : before.getLast? = none
      · rw [if_pos first, update_of_ne (fun same => ne (congrArg _ same))]
      · rw [if_neg first]
    | free page => rfl
  · intro other ne
    conv_lhs => unfold chainNext
    dsimp only
    rw [if_neg (Ne.symm ne), apply_ite link]
    rfl

end Chains

end Tair.Mdb
