/-
The lists of pages. A slab keeps lists of full pages, of empty ones, and of partly filled pages
for every ten free slots, and counts the pages of each kind.
-/

import Tair.Library.Links
import Tair.Library.Tally
import Tair.Mdb.MemCache

namespace Tair.Mdb

open MdbManager Function Tair.Library

/-- Page 0 is no page of a slab, so that 0 ends a list. -/
def pageLink (page : Nat) : Option Nat := if page = 0 then none else some page

@[simp]
theorem pageLink_zero : pageLink 0 = none := rfl

theorem pageLink_of_ne {page : Nat} (real : page ≠ 0) : pageLink page = some page :=
  if_neg real

theorem pageLink_eq_some {page other : Nat} :
    pageLink page = some other ↔ page ≠ 0 ∧ page = other := by
  unfold pageLink
  split
  · simp [*]
  · simp [*]

inductive PageKind where
  | full
  | free
  | part
deriving DecidableEq, Repr

def PageList.kind : PageList → PageKind
  | .full => .full
  | .free => .free
  | .part _ => .part

def homeList (perSlab freeNr : Nat) : PageList :=
  if freeNr = 0 then .full
  else if freeNr = perSlab then .free
  else .part (freeNr / partialPageBucket)

theorem homeList_free {perSlab freeNr : Nat} (pos : 0 < freeNr) (all : freeNr = perSlab) :
    homeList perSlab freeNr = .free := by
  rw [homeList, if_neg (Nat.ne_of_gt pos), if_pos all]

theorem homeList_part {perSlab freeNr : Nat} (some : freeNr ≠ 0) (fewer : freeNr ≠ perSlab) :
    homeList perSlab freeNr = .part (freeNr / partialPageBucket) := by
  rw [homeList, if_neg some, if_neg fewer]

theorem homeList_eq_part {perSlab freeNr bucket : Nat}
    (home : homeList perSlab freeNr = .part bucket) :
    0 < freeNr ∧ freeNr ≠ perSlab ∧ bucket = freeNr / partialPageBucket := by
  unfold homeList at home
  split at home
  · cases home
  · split at home
    · cases home
    · cases home
      exact ⟨Nat.pos_of_ne_zero ‹_›, ‹_›, rfl⟩

theorem homeList_eq_free {perSlab freeNr : Nat} (home : homeList perSlab freeNr = .free) :
    0 < freeNr ∧ freeNr = perSlab := by
  unfold homeList at home
  split at home
  · cases home
  · split at home
    · exact ⟨Nat.pos_of_ne_zero ‹_›, ‹_›⟩
    · cases home

namespace SlabManager

variable (slab : SlabManager)

def pagesNo : PageKind → Int
  | .full => slab.fullPagesNo
  | .free => slab.freePagesNo
  | .part => slab.partialPagesNo

def withPageHeads (heads : PageList → Nat) : SlabManager :=
  { slab with
    fullPages := heads .full
    freePages := heads .free
    partialPages := fun bucket => heads (.part bucket) }

@[simp]
theorem pageHead_withPageHeads (heads : PageList → Nat) (list : PageList) :
    (slab.withPageHeads heads).pageHead list = heads list := by
  cases list with
  | full => rfl
  | free => rfl
  | part bucket => rfl

theorem withPageHeads_self : slab.withPageHeads slab.pageHead = slab := rfl

theorem setPageHead_eq (list : PageList) (head : Nat) :
    slab.setPageHead list head =
      slab.withPageHeads (fun other => if list = other then head else slab.pageHead other) := by
  cases list with
  | full => rfl
  | free => rfl
  | part bucket =>
    unfold setPageHead withPageHeads
    dsimp only
    congr 1
    funext other
    by_cases same : bucket = other
    · subst same
      rw [update_self, if_pos rfl]
    · rw [update_of_ne (Ne.symm same), if_neg (fun equal => same (PageList.part.inj equal))]
      rfl

end SlabManager

namespace MdbManager

def pageNext (manager : MdbManager) (page : Nat) : Option Nat := pageLink (manager.pages page).next

def pagePrev (manager : MdbManager) (page : Nat) : Option Nat := pageLink (manager.pages page).prev

def pageFirst (manager : MdbManager) (list : Nat × PageList) : Option Nat :=
  pageLink ((manager.slabs list.1).pageHead list.2)

variable (mdb : MdbManager)

theorem modifyPage_eq (page : Nat) (change : PageInfo → PageInfo) :
    mdb.modifyPage page change = { mdb with
      pages := fun other => if page = other then change (mdb.pages other)
        else mdb.pages other } := by
  unfold modifyPage
  congr 1
  funext other
  by_cases same : page = other
  · rw [same, update_self, if_pos rfl]
  · rw [update_of_ne (Ne.symm same), if_neg same]

theorem modifyPage_free (page : Nat) (freeNr : Nat → Nat) (freeHead : Nat) :
    mdb.modifyPage page (fun info => { info with freeNr := freeNr info.freeNr, freeHead }) =
      { mdb with
        pages := fun other => { mdb.pages other with
          freeNr := if page = other then freeNr (mdb.pages other).freeNr
            else (mdb.pages other).freeNr
          freeHead := if page = other then freeHead else (mdb.pages other).freeHead } } := by
  rw [modifyPage_eq]
  congr 1
  funext other
  by_cases same : page = other
  · simp only [if_pos same]
  · simp only [if_neg same]

theorem modifyLinkedPage_eq (page : Nat) (change : PageInfo → PageInfo) :
    mdb.modifyLinkedPage page change = { mdb with
      pages := fun other => if pageLink page = some other then change (mdb.pages other)
        else mdb.pages other } := by
  unfold modifyLinkedPage
  by_cases zero : page = 0
  · rw [if_pos zero, zero, pageLink_zero]
    rfl
  · rw [if_neg zero, modifyPage_eq, pageLink_of_ne zero]
    simp only [Option.some.injEq]

theorem modifySlab_setPageHead (slab : Nat) (list : PageList) (head : Nat) :
    mdb.modifySlab slab (fun s => s.setPageHead list head) = { mdb with
      slabs := fun other => (mdb.slabs other).withPageHeads (fun l =>
        if (slab, list) = (other, l) then head else (mdb.slabs other).pageHead l) } := by
  unfold modifySlab
  congr 1
  funext other
  by_cases same : slab = other
  · subst same
    rw [update_self]
    dsimp only
    rw [SlabManager.setPageHead_eq]
    simp only [Prod.mk.injEq, true_and]
  · rw [update_of_ne (Ne.symm same)]
    simp only [Prod.mk.injEq, same, false_and, if_false, SlabManager.withPageHeads_self]

variable (mdb : MdbManager) (slab page : Nat) (list : PageList)

/-! ### Linking, all at once -/

theorem linkPage_eq : mdb.linkPage slab page list = { mdb with
    pages := fun other =>
      { mdb.pages other with
        next := if page = other then (mdb.slabs slab).pageHead list
          else (mdb.pages other).next
        prev := if mdb.pageFirst (slab, list) = some other then (mdb.pages page).id
          else if page = other then 0 else (mdb.pages other).prev }
    slabs := fun other => (mdb.slabs other).withPageHeads (fun l =>
      if (slab, list) = (other, l) then (mdb.pages page).id
      else (mdb.slabs other).pageHead l) } := by
  have opened : mdb.linkPage slab page list =
      ((mdb.modifyPage page _).modifyLinkedPage _ _).modifySlab slab
        (fun s => s.setPageHead list (mdb.pages page).id) := rfl
  rw [opened, modifyPage_eq, modifyLinkedPage_eq, modifySlab_setPageHead]
  congr 1
  funext other
  unfold pageFirst
  by_cases first : pageLink ((mdb.slabs slab).pageHead list) = some other
  · by_cases same : page = other
    · simp only [if_pos first, if_pos same]
    · simp only [if_pos first, if_neg same]
  · by_cases same : page = other
    · simp only [if_neg first, if_pos same]
    · simp only [if_neg first, if_neg same]

theorem unlinkPage_eq (id : (mdb.pages page).id = page)
    (nextApart : mdb.pageNext page ≠ some page) :
    mdb.unlinkPage slab page list = { mdb with
      pages := fun other =>
        { mdb.pages other with
          next := if page = other then 0
            else if mdb.pagePrev page = some other then (mdb.pages page).next
            else (mdb.pages other).next
          prev := if page = other then 0
            else if mdb.pageNext page = some other then (mdb.pages page).prev
            else (mdb.pages other).prev }
      slabs := fun other => (mdb.slabs other).withPageHeads (fun l =>
        if (slab, list) = (other, l) ∧ page = (mdb.slabs slab).pageHead list then
          (mdb.pages page).next
        else (mdb.slabs other).pageHead l) } := by
  have apart : ¬ pageLink (mdb.pages page).next = some page := nextApart
  have shorter : (if (mdb.pages page).id = (mdb.slabs slab).pageHead list then
        mdb.modifySlab slab (fun s => s.setPageHead list (mdb.pages page).next)
      else mdb) = { mdb with
        slabs := fun other => (mdb.slabs other).withPageHeads (fun l =>
          if (slab, list) = (other, l) ∧ page = (mdb.slabs slab).pageHead list then
            (mdb.pages page).next
          else (mdb.slabs other).pageHead l) } := by
    rw [id]
    by_cases first : page = (mdb.slabs slab).pageHead list
    · rw [if_pos first, modifySlab_setPageHead]
      simp only [← first, and_true]
    · rw [if_neg first]
      simp only [first, and_false, if_false, SlabManager.withPageHeads_self]
  unfold unlinkPage
  dsimp only
  rw [shorter]
  simp only [modifyLinkedPage_eq, modifyPage_eq, if_neg apart]
  congr 1
  funext other
  unfold pagePrev pageNext
  by_cases same : page = other
  · simp only [if_pos same]
    subst same
    by_cases before : pageLink (mdb.pages page).prev = some page
    · simp only [if_pos before, if_neg apart]
    · simp only [if_neg before, if_neg apart]
  · simp only [if_neg same]
    by_cases before : pageLink (mdb.pages page).prev = some other
    · by_cases behind : pageLink (mdb.pages page).next = some other
      · simp only [if_pos before, if_pos behind]
      · simp only [if_pos before, if_neg behind]
    · by_cases behind : pageLink (mdb.pages page).next = some other
      · simp only [if_neg before, if_pos behind]
      · simp only [if_neg before, if_neg behind]

end MdbManager

/-! ### Linking keeps the lists -/

def PageLists (manager : MdbManager) (place : Nat → Option (Nat × PageList)) : Prop :=
  ∃ last, Threaded manager.pagePrev manager.pageNext manager.pageFirst last place

namespace PageLists

variable {mdb next : MdbManager} {place : Nat → Option (Nat × PageList)} {slab page : Nat}
  {list : PageList}

section

variable (lists : PageLists mdb place)

include lists

theorem congr (links : ∀ page, place page ≠ none → (next.pages page).next = (mdb.pages page).next ∧
      (next.pages page).prev = (mdb.pages page).prev)
    (heads : ∀ slab, (next.slabs slab).pageHead = (mdb.slabs slab).pageHead) :
    PageLists next place := by
  obtain ⟨last, threaded⟩ := lists
  have same : ∀ page list, place page = some list →
      (next.pages page).next = (mdb.pages page).next ∧
        (next.pages page).prev = (mdb.pages page).prev := by
    intro page list placed
    apply links
    rw [placed]
    exact Option.some_ne_none list
  refine ⟨last, threaded.congr ?_ ?_ ?_ (fun _ => rfl) (fun _ => rfl)⟩
  · intro page list placed
    exact congrArg pageLink (same page list placed).1
  · intro page list placed
    exact congrArg pageLink (same page list placed).2
  · intro list
    unfold pageFirst
    rw [heads]

theorem place_head {head : Nat} (starts : (mdb.slabs slab).pageHead list = head)
    (real : head ≠ 0) : place head = some (slab, list) := by
  obtain ⟨last, threaded⟩ := lists
  apply threaded.forward.place_first
  unfold pageFirst
  rw [starts, pageLink_of_ne real]

theorem head_ne_zero (placed : place page = some (slab, list)) :
    (mdb.slabs slab).pageHead list ≠ 0 := by
  obtain ⟨last, threaded⟩ := lists
  intro zero
  apply threaded.forward.first_ne_none placed
  unfold pageFirst
  rw [zero, pageLink_zero]

theorem linkPage (slab : Nat) (list : PageList) (id : (mdb.pages page).id = page)
    (real : page ≠ 0) (notIn : place page = none) :
    PageLists (mdb.linkPage slab page list) (update place page (some (slab, list))) := by
  obtain ⟨last, threaded⟩ := lists
  have notHead : mdb.pageFirst (slab, list) ≠ some page := by
    intro starts
    rw [threaded.forward.place_first starts] at notIn
    cases notIn
  have head : (mdb.linkPage slab page list).pageFirst (slab, list) = some page := by
    rw [linkPage_eq]
    unfold pageFirst
    rw [SlabManager.pageHead_withPageHeads, if_pos rfl, id, pageLink_of_ne real]
  rw [linkPage_eq] at head ⊢
  refine ⟨update last (slab, list)
    (if last (slab, list) = none then some page else last (slab, list)), ?_⟩
  apply Threaded.push threaded _ notIn head
  · intro other ne
    unfold pageFirst
    rw [SlabManager.pageHead_withPageHeads, if_neg (Ne.symm ne)]
  · rw [update_self]
  · intro other ne
    exact update_of_ne ne _ _
  · unfold pageNext pageFirst
    dsimp only
    rw [if_pos rfl]
  · unfold pagePrev
    dsimp only
    rw [if_neg notHead, if_pos rfl, pageLink_zero]
  · intro other ne
    unfold pageNext
    dsimp only
    rw [if_neg (Ne.symm ne)]
  · intro other ne
    conv_lhs => unfold pagePrev
    dsimp only
    rw [if_neg (Ne.symm ne), id, apply_ite pageLink, pageLink_of_ne real]
    rfl

theorem unlinkPage (id : (mdb.pages page).id = page) (real : page ≠ 0)
    (placed : place page = some (slab, list)) :
    PageLists (mdb.unlinkPage slab page list) (update place page none) := by
  obtain ⟨last, threaded⟩ := lists
  rw [unlinkPage_eq _ _ _ _ id (threaded.forward.next_ne placed)]
  refine ⟨update last (slab, list)
    (if last (slab, list) = some page then mdb.pagePrev page else last (slab, list)), ?_⟩
  apply Threaded.remove threaded placed
  · unfold pageFirst pageNext
    rw [SlabManager.pageHead_withPageHeads, apply_ite pageLink]
    simp only [true_and]
    have head : page = (mdb.slabs slab).pageHead list ↔
        pageLink ((mdb.slabs slab).pageHead list) = some page := by
      rw [pageLink_eq_some]
      constructor
      · intro same
        rw [← same]
        exact ⟨real, rfl⟩
      · intro both
        exact both.2.symm
    simp only [head]
  · intro other ne
    unfold pageFirst
    rw [SlabManager.pageHead_withPageHeads, if_neg (fun both => ne both.1.symm)]
  · rw [update_self]
  · intro other ne
    exact update_of_ne ne _ _
  · intro other ne
    conv_lhs => unfold pageNext
    dsimp only
    rw [if_neg (Ne.symm ne), apply_ite pageLink]
    rfl
  · intro other ne
    conv_lhs => unfold pagePrev
    dsimp only
    rw [if_neg (Ne.symm ne), apply_ite pageLink]
    rfl

end

end PageLists

/-! ### Counting pages -/

/-- The counters of every slab. `kind` says which slab counts a page as what. -/
def PageCounts (manager : MdbManager) (kind : Nat → Option (Nat × PageKind)) : Prop :=
  ∀ slab which, (manager.slabs slab).pagesNo which =
    tallyOn (Finset.range manager.pool.totalPages) kind (some (slab, which))

namespace PageCounts

variable {mdb next : MdbManager} {kind : Nat → Option (Nat × PageKind)} {slab page : Nat}
  {which : PageKind}

theorem congr (counts : PageCounts mdb kind) (total : next.pool.totalPages = mdb.pool.totalPages)
    (same : ∀ slab, (next.slabs slab).pagesNo = (mdb.slabs slab).pagesNo) :
    PageCounts next kind := by
  intro slab which
  rw [same, total]
  exact counts slab which

theorem exists_page (counts : PageCounts mdb kind)
    (pos : 0 < (mdb.slabs slab).pagesNo which) : ∃ page, kind page = some (slab, which) := by
  rw [counts] at pos
  obtain ⟨page, -, counted⟩ := TallyOn.tallyOn_pos.mp (Int.natCast_pos.mp pos)
  exact ⟨page, counted⟩

end PageCounts

end Tair.Mdb
