/-
The pool of pages. It counts its free pages, and as long as the count is right a search for a free
page ends at one. The engine starts with such a pool, with slabs of growing sizes and with nothing
in its books.
-/

import Tair.Mdb.Invariant

namespace Tair.Mdb

open MdbManager Function Tair.Common Tair.Library

namespace MemPool

def free (pool : MemPool) : Finset Nat :=
  (Finset.range pool.totalPages).filter fun page => pool.pageBitmap page = false

theorem mem_free {pool : MemPool} {page : Nat} :
    page ∈ pool.free ↔ page < pool.totalPages ∧ pool.pageBitmap page = false := by
  unfold free
  rw [Finset.mem_filter, Finset.mem_range]

structure Counted (pool : MemPool) : Prop where
  first : pool.pageBitmap 0 = true
  current : pool.currentPage ≤ pool.totalPages
  count : pool.freePages = pool.free.card

namespace Counted

variable {pool : MemPool} {index : Nat}

theorem taken (counted : pool.Counted) (pos : 0 < index) (below : index < pool.totalPages)
    (untaken : pool.pageBitmap index = false) : (pool.taken index).Counted where
  first := by
    unfold MemPool.taken
    dsimp only
    rw [update_of_ne (Nat.ne_of_lt pos)]
    exact counted.first
  current := below
  count := by
    have fewer : (pool.taken index).free = pool.free.erase index := by
      ext page
      rw [Finset.mem_erase, mem_free, mem_free]
      unfold MemPool.taken
      dsimp only
      by_cases same : page = index
      · subst same
        rw [update_self]
        simp
      · rw [update_of_ne same]
        exact (and_iff_right same).symm
    rw [fewer, Finset.card_erase_of_mem (mem_free.mpr ⟨below, untaken⟩), ← counted.count]
    rfl

theorem freePage (counted : pool.Counted) (pos : 0 < index) (below : index < pool.totalPages) :
    (pool.freePage index).Counted := by
  unfold MemPool.freePage
  split
  next used =>
    refine ⟨?_, counted.current, ?_⟩
    · dsimp only
      rw [update_of_ne (Nat.ne_of_lt pos)]
      exact counted.first
    · have more : free { pool with
          freePages := pool.freePages + 1
          pageBitmap := update pool.pageBitmap index false } =
          Insert.insert index pool.free := by
        ext page
        rw [Finset.mem_insert, mem_free, mem_free]
        dsimp only
        by_cases same : page = index
        · subst same
          rw [update_self]
          simp [below]
        · rw [update_of_ne same]
          exact (or_iff_right same).symm
      have notFree : index ∉ pool.free := by
        intro member
        rw [(mem_free.mp member).2] at used
        cases used
      rw [more, Finset.card_insert_of_notMem notFree, counted.count]
  · exact counted

end Counted

/-! ### Searches for a free page end -/

def away (pool : MemPool) (page current : Nat) : Nat :=
  if current ≤ page then page - current else pool.totalPages - current + page

theorem search_ends {pool : MemPool} {page turns : Nat} (below : page < pool.totalPages)
    (untaken : pool.pageBitmap page = false) {current : Nat} (inside : current ≤ pool.totalPages)
    (near : pool.away page current < turns) :
    ∃ index, pool.search turns current = .ok index ∧ index < pool.totalPages := by
  induction turns generalizing current with
  | zero => exact absurd near (Nat.not_lt_zero _)
  | succ turns ih =>
    unfold search
    dsimp only
    obtain ⟨index, isIndex⟩ : ∃ index, (if current = pool.totalPages then 0 else current) = index :=
      ⟨_, rfl⟩
    rw [isIndex]
    have position : index < pool.totalPages := by
      rw [← isIndex]
      split_ifs <;> omega
    cases taken : pool.pageBitmap index with
    | false => exact ⟨index, rfl, position⟩
    | true =>
      have other : index ≠ page := by
        intro same
        rw [same, untaken] at taken
        cases taken
      refine ih position ?_
      unfold away at near ⊢
      -- the search goes on behind the last page at the first one
      split_ifs at isIndex near ⊢ <;> omega

/-- The pool that has handed out its first pages, in order. -/
def upTo (total used : Nat) : MemPool where
  totalPages := total
  freePages := total - used
  currentPage := used
  pageBitmap page := page < used

theorem counted_upTo {total used : Nat} (pos : 0 < used) (room : used ≤ total) :
    (upTo total used).Counted := by
  refine ⟨decide_eq_true pos, room, ?_⟩
  have free : (upTo total used).free = Finset.Ico used total := by
    ext page
    rw [mem_free, Finset.mem_Ico]
    unfold upTo
    dsimp only
    rw [decide_eq_false_iff_not, not_lt, and_comm]
  rw [free, Nat.card_Ico]
  rfl

theorem Counted.allocPage_ends {pool : MemPool} (counted : pool.Counted) :
    ∃ result, pool.allocPage = .ok result := by
  unfold allocPage
  by_cases none : pool.freePages = 0
  · rw [if_pos none]
    exact ⟨_, rfl⟩
  · rw [if_neg none]
    rw [counted.count] at none
    obtain ⟨page, member⟩ := Finset.card_ne_zero.mp none
    obtain ⟨below, untaken⟩ := mem_free.mp member
    have near : pool.away page pool.currentPage < pool.totalPages + 1 := by
      unfold away
      split_ifs <;> omega
    obtain ⟨index, found, position⟩ := search_ends below untaken counted.current near
    have pos : 0 < index := by
      refine Nat.pos_of_ne_zero fun zero => ?_
      have free := search_free found
      rw [zero, counted.first] at free
      cases free
    rw [found]
    dsimp only
    unfold check
    rw [if_pos ⟨pos, position⟩]
    exact ⟨_, rfl⟩

theorem Counted.allocPage {pool next : MemPool} {page : Option Nat} (counted : pool.Counted)
    (paged : pool.allocPage = .ok (next, page)) : next.Counted := by
  cases page with
  | none =>
    obtain ⟨rfl, -⟩ := allocPage_none paged
    exact counted
  | some index =>
    obtain ⟨rfl, untaken, pos, below⟩ := allocPage_some paged
    exact counted.taken pos below untaken

end MemPool

/-! ### The start -/

structure Begun (manager : MdbManager) (sizes : List Nat) : Prop where
  pool : manager.pool.Counted
  count : manager.slabsCount = sizes.length
  table : 0 < manager.bucketSize
  sizes : ∀ slab, slab < sizes.length → sizes[slab]? = some (manager.slabs slab).slabSize
  areaStat : manager.areaStat = fun _ => ⟨0, 0, 0, 0⟩

namespace MdbManager

theorem metaPages_pos (param : MdbConfig) : 0 < param.metaPages := by
  have large := param.pageSize_ge
  unfold MdbConfig.metaPages metaLen
  refine Nat.div_pos ?_ (by omega)
  omega

variable {param : MdbConfig} {mdb next : MdbManager} {sizes : List Nat}

theorem begun_empty (room : param.metaPages < param.totalPages) : Begun (empty param) [] := by
  exact ⟨MemPool.counted_upTo (metaPages_pos param) (Nat.le_of_lt room), rfl, Nat.two_pow_pos _,
    fun slab inside => absurd inside (Nat.not_lt_zero _), rfl⟩

theorem begun_takeTablePage (begun : Begun mdb sizes)
    (result : mdb.takeTablePage = .ok next) : Begun next sizes := by
  unfold takeTablePage at result
  split at result
  · cases result
  · cases result
  next paged =>
    cases result
    exact ⟨begun.pool.allocPage paged, begun.count, begun.table, begun.sizes, begun.areaStat⟩

theorem upkeep_preAlloc {slab : Nat} (result : mdb.preAlloc slab = .ok next) :
    ∃ pool page count, mdb.pool.allocPage = .ok (pool, page) ∧
      Upkeep mdb next slab count count pool := by
  unfold preAlloc at result
  have pooled (pool : MemPool) : Upkeep mdb { mdb with pool } slab 0 0 pool :=
    .of_same rfl rfl (fun _ => rfl) (fun _ => rfl)
  split at result
  · cases result
  next pool paged =>
    cases result
    exact ⟨pool, none, 0, paged, pooled pool⟩
  next pool index paged =>
    cases result
    have counted := (pooled pool).trans (Upkeep.addFree _ slab 1)
    rw [zero_add] at counted
    have fresh (mdb : MdbManager) : Upkeep mdb (mdb.initPage slab index) slab 0 0 mdb.pool :=
      .of_same rfl rfl (fun _ => rfl) (fun _ => rfl)
    have opened := counted.trans (fresh _)
    rw [add_zero] at opened
    exact ⟨pool, some index, 1, paged, opened.relinked (Relinked.linkPage _ slab index .free)⟩

theorem begun_addSlab {size : Nat} (begun : Begun mdb sizes)
    (result : mdb.addSlab param size = .ok next) : Begun next (sizes ++ [size]) := by
  unfold addSlab at result
  obtain ⟨pool, page, count, paged, upkeep⟩ := upkeep_preAlloc result
  refine ⟨?_, ?_, begun.table.trans_eq upkeep.bucketSize.symm, ?_,
    upkeep.areaStat.trans begun.areaStat⟩
  · rw [upkeep.pool]
    exact begun.pool.allocPage paged
  · rw [upkeep.slabsCount, List.length_append, List.length_singleton, ← begun.count]
  · intro slab inside
    rw [upkeep.slabSize]
    dsimp only
    rw [List.length_append, List.length_singleton, ← begun.count] at inside
    by_cases last : slab = mdb.slabsCount
    · rw [last, update_self, begun.count, List.getElem?_concat_length]
      rfl
    · rw [update_of_ne last]
      have prior : slab < sizes.length := by
        rw [← begun.count]
        omega
      rw [List.getElem?_append_left prior]
      exact begun.sizes slab prior

theorem begun_addSlabs {done : List Nat} (begun : Begun mdb done)
    (result : sizes.foldlM (addSlab param) mdb = .ok next) :
    Begun next (done ++ sizes) := by
  induction sizes generalizing mdb done with
  | nil =>
    cases result
    rw [List.append_nil]
    exact begun
  | cons size rest ih =>
    rw [List.foldlM_cons] at result
    obtain ⟨grown, first, others⟩ := ok_of_bind result
    have more := ih (begun_addSlab begun first) others
    rwa [List.append_assoc] at more

theorem begun_initialized {start : MdbManager} (result : initialized param = .ok start) :
    Begun start param.slabSizes := by
  unfold initialized at result
  obtain ⟨room, result⟩ := ok_of_check result
  obtain ⟨table, tabled, result⟩ := ok_of_bind result
  have ready : Begun table [] := by
    refine @foldlM_relates MdbManager Fault Nat _ (fun first second => Begun first [] →
      Begun second []) (fun _ begun => begun) (fun first second begun => second (first begun)) ?_ _ _
      _ tabled (begun_empty room)
    intro mdb next entry taken begun
    exact begun_takeTablePage begun taken
  exact begun_addSlabs ready (ok_of_check result).2

end MdbManager

end Tair.Mdb
