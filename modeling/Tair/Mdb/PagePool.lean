/-
Pages are handed out once. The memory that is configured is cut into pages whose number nobody
checks; the bitmap of the pool has room for 65536 of them, as many as an item id can tell apart.
-/

import Tair.Mdb.Pool

namespace Tair.Mdb

open Function Tair.Common Tair.Library

/-- `mdb_param` as far as the pool is built from it. -/
structure PoolParam where
  size : Nat
  pageSize : Nat
  hashShift : Nat
  pageSize_ge : 2 ^ 20 ≤ pageSize

/-- `BITMAP_SIZE`, in bytes. -/
def bitmapSize : Nat := 8192

namespace MemPool

/-- The bits that a search tests. -/
def tested (pool : MemPool) : Nat → Nat → List Nat
  | 0, _ => []
  | turns + 1, current =>
    let index := if current = pool.totalPages then 0 else current
    index :: if pool.pageBitmap index then tested pool turns (index + 1) else []

theorem lt_of_mem_tested {pool : MemPool} {turns current bit : Nat}
    (inside : current ≤ pool.totalPages) (some : 0 < pool.totalPages)
    (member : bit ∈ pool.tested turns current) : bit < pool.totalPages := by
  induction turns generalizing current with
  | zero => cases member
  | succ turns ih =>
    unfold tested at member
    generalize isIndex : (if current = pool.totalPages then 0 else current) = index at member
    have position : index < pool.totalPages := by
      rw [← isIndex]
      split_ifs <;> omega
    rcases List.mem_cons.mp member with first | later
    · rw [first]
      exact position
    · split at later
      · exact ih position later
      · cases later

def takePage (pool : MemPool) : Except Fault MemPool :=
  match pool.allocPage with
  | .error fault => .error fault
  | .ok (_, none) => .error .assertFailed
  | .ok (next, some _) => .ok next

theorem allocPage_upTo {total used : Nat} (below : used < total) :
    (upTo total used).allocPage =
      check (0 < used ∧ used < total) (.ok (upTo total (used + 1), some used)) := by
  have found : (upTo total used).search (total + 1) used = .ok used := by
    unfold search upTo
    simp [Nat.ne_of_lt below]
  have next : (upTo total used).taken used = upTo total (used + 1) := by
    unfold taken upTo
    congr 1
    funext page
    by_cases same : page = used
    · simp [same]
    · rw [update_of_ne same]
      exact decide_eq_decide.mpr (by omega)
  unfold allocPage
  rw [if_neg (by change total - used ≠ 0; omega)]
  have searched : (upTo total used).search ((upTo total used).totalPages + 1)
      (upTo total used).currentPage = .ok used := found
  rw [searched]
  dsimp only
  rw [next]
  rfl

/-- A page that is not there is not handed out, and page 0 never is. -/
theorem upTo_of_takePages {pages : List Nat} {total used : Nat} {start : MemPool}
    (room : used ≤ total)
    (result : pages.foldlM (fun (pool : MemPool) _ => pool.takePage) (upTo total used) =
      .ok start) :
    used + pages.length ≤ total ∧ start = upTo total (used + pages.length) := by
  induction pages generalizing used with
  | nil =>
    cases result
    exact ⟨room, rfl⟩
  | cons page rest ih =>
    rw [List.foldlM_cons] at result
    obtain ⟨next, taken, more⟩ := ok_of_bind result
    unfold takePage at taken
    rcases Nat.lt_or_eq_of_le room with below | last
    · rw [allocPage_upTo below] at taken
      unfold check at taken
      by_cases bounds : 0 < used ∧ used < total
      · rw [if_pos bounds] at taken
        cases taken
        rw [List.length_cons, Nat.add_comm rest.length, ← Nat.add_assoc]
        exact ih below more
      · rw [if_neg bounds] at taken
        cases taken
    · have none : (upTo total used).allocPage = .ok (upTo total used, none) := by
        unfold allocPage
        exact if_pos (Nat.sub_eq_zero_of_le last.ge)
      rw [none] at taken
      cases taken

end MemPool

namespace PoolParam

variable (param : PoolParam)

/-- The number of pages is handed over as an int. -/
def totalPages : Nat := param.size / param.pageSize % 2 ^ 32

/-- The sum is one of ints; where it does not fit the quotient is 0. -/
def metaPages : Nat :=
  if metaLen + param.pageSize ≤ 2 ^ 31 then (metaLen + param.pageSize - 1) / param.pageSize else 0

def tablePages : Nat :=
  max ((2 ^ param.hashShift * 8 + param.pageSize - 1) / param.pageSize) 1

/-- The pages before this one hold the data of the pool and the hash table. -/
def reserved : Nat := param.metaPages + param.tablePages

def initialized : Except Fault MemPool :=
  check (param.totalPages < 2 ^ 31 ∧ param.metaPages < param.totalPages)
    ((List.range param.tablePages).foldlM (fun (pool : MemPool) _ => pool.takePage)
      (.upTo param.totalPages param.metaPages))

theorem upTo_of_initialized {param : PoolParam} {start : MemPool}
    (begun : param.initialized = .ok start) :
    0 < param.reserved ∧ param.reserved ≤ param.totalPages ∧
      start = .upTo param.totalPages param.reserved := by
  obtain ⟨bounds, taken⟩ := ok_of_check begun
  obtain ⟨fits, isStart⟩ := MemPool.upTo_of_takePages (Nat.le_of_lt bounds.2) taken
  rw [List.length_range] at fits isStart
  have some : 0 < param.tablePages := Nat.lt_of_lt_of_le Nat.one_pos (Nat.le_max_right _ _)
  exact ⟨Nat.add_pos_right _ some, fits, isStart⟩

end PoolParam

/-- A pool with the pages that its callers hold. -/
structure Lending where
  pool : MemPool
  held : Finset Nat

inductive PageCall where
  | allocPage
  | freePage (index : Nat)

namespace Lending

def step (state : Lending) : PageCall → Except Fault Lending
  | .allocPage => (fun (answer : MemPool × Option Nat) =>
      ⟨answer.1, answer.2.toFinset ∪ state.held⟩) <$> state.pool.allocPage
  | .freePage index => check (0 < index ∧ index < state.pool.totalPages)
      (.ok ⟨state.pool.freePage index, state.held.erase index⟩)

/-- Pages are given back by those who hold them. -/
def Allowed (state : Lending) : PageCall → Prop
  | .allocPage => True
  | .freePage index => index ∈ state.held

variable {param : PoolParam} {start : MemPool} {state next : Lending}

structure Kept (param : PoolParam) (state : Lending) : Prop where
  counted : state.pool.Counted
  total : state.pool.totalPages = param.totalPages
  bits : ∀ page, state.pool.pageBitmap page = true ↔ page < param.reserved ∨ page ∈ state.held
  held : state.held ⊆ Finset.Ico param.reserved param.totalPages

theorem kept_start (begun : param.initialized = .ok start) : Kept param ⟨start, ∅⟩ := by
  obtain ⟨some, room, rfl⟩ := PoolParam.upTo_of_initialized begun
  refine ⟨MemPool.counted_upTo some room, rfl, ?_, Finset.empty_subset _⟩
  intro page
  simp [MemPool.upTo]

namespace Kept

theorem untaken (kept : Kept param state) {index : Nat}
    (free : state.pool.pageBitmap index = false) : param.reserved ≤ index ∧ index ∉ state.held := by
  rw [← Bool.not_eq_true, kept.bits, not_or, not_lt] at free
  exact free

theorem step {call : PageCall} (kept : Kept param state) (allowed : state.Allowed call)
    (ran : state.step call = .ok next) : Kept param next := by
  cases call with
  | allocPage =>
    obtain ⟨⟨pool, page⟩, paged, rfl⟩ := ok_of_map ran
    cases page with
    | none =>
      obtain ⟨rfl, -⟩ := MemPool.allocPage_none paged
      simpa using kept
    | some index =>
      obtain ⟨rfl, free, pos, below⟩ := MemPool.allocPage_some paged
      refine ⟨kept.counted.taken pos below free, kept.total, ?_, ?_⟩
      · intro page
        by_cases same : page = index
        · simp [MemPool.taken, same]
        · simp [MemPool.taken, same, kept.bits]
      · rw [kept.total] at below
        simp [Finset.insert_subset_iff, kept.held, (kept.untaken free).1, below]
  | freePage index =>
    obtain ⟨bounds, isNext⟩ := ok_of_check ran
    cases isNext
    have behind := (Finset.mem_Ico.mp (kept.held allowed)).1
    have used := (kept.bits index).mpr (Or.inr allowed)
    have counted := kept.counted.freePage bounds.1 bounds.2
    unfold MemPool.freePage at counted ⊢
    rw [if_pos used] at counted ⊢
    refine ⟨counted, kept.total, ?_, (Finset.erase_subset _ _).trans kept.held⟩
    intro page
    by_cases same : page = index
    · simp [same, behind]
    · simp [same, kept.bits]

end Kept

/-- What the pool promises. The bits are those of a search and those of pages in use. -/
structure Sound (param : PoolParam) (state : Lending) : Prop where
  count : state.pool.freePages = state.pool.free.card
  bits : ∀ bit, bit ∈ state.pool.tested (state.pool.totalPages + 1) state.pool.currentPage ∨
    state.pool.pageBitmap bit = true → bit / 8 < bitmapSize
  alloc : ∃ next page, state.pool.allocPage = .ok (next, page) ∧
    (page = none ↔ state.pool.free = ∅) ∧
    ∀ index, page = some index → index ∉ state.held ∧ param.reserved ≤ index ∧
      ∀ size offset slab, pageId (itemId size offset index slab) = index

theorem Kept.sound (kept : Kept param state) (room : param.reserved ≤ param.totalPages)
    (some : 0 < param.reserved) (few : param.totalPages ≤ 2 ^ 16) : Sound param state := by
  have total := kept.total
  refine ⟨kept.counted.count, ?_, ?_⟩
  · intro bit access
    have below : bit < param.totalPages := by
      rcases access with found | used
      · rw [← total]
        exact MemPool.lt_of_mem_tested kept.counted.current (by omega) found
      · rcases (kept.bits bit).mp used with early | out
        · omega
        · exact (Finset.mem_Ico.mp (kept.held out)).2
    unfold bitmapSize
    omega
  · obtain ⟨⟨next, page⟩, paged⟩ := kept.counted.allocPage_ends
    refine ⟨next, page, paged, ?_⟩
    cases page with
    | none =>
      have zero := (MemPool.allocPage_none paged).2
      rw [kept.counted.count, Finset.card_eq_zero] at zero
      exact ⟨iff_of_true rfl zero, fun index some => by cases some⟩
    | some index =>
      obtain ⟨-, free, -, below⟩ := MemPool.allocPage_some paged
      obtain ⟨behind, fresh⟩ := kept.untaken free
      refine ⟨iff_of_false (by simp) ?_, ?_⟩
      · intro none
        exact Finset.notMem_empty index (none ▸ MemPool.mem_free.mpr ⟨below, free⟩)
      · intro other same
        cases same
        refine ⟨fresh, behind, fun size offset slab => ?_⟩
        rw [pageId_itemId]
        exact Nat.mod_eq_of_lt (by omega)

/-- Without a page given back the pages go out in order. -/
theorem reached_upTo (begun : param.initialized = .ok start) {used : Nat}
    (least : param.reserved ≤ used) (room : used ≤ param.totalPages) :
    ∃ held, Reached step Allowed ⟨start, ∅⟩ ⟨.upTo param.totalPages used, held⟩ := by
  obtain ⟨some, -, rfl⟩ := PoolParam.upTo_of_initialized begun
  induction used, least using Nat.le_induction with
  | base => exact ⟨∅, .start⟩
  | succ used least ih =>
    obtain ⟨held, reached⟩ := ih (Nat.le_of_lt room)
    have stepped : step ⟨.upTo param.totalPages used, held⟩ .allocPage =
        .ok ⟨.upTo param.totalPages (used + 1), {used} ∪ held⟩ := by
      unfold step
      dsimp only
      rw [MemPool.allocPage_upTo room]
      unfold check
      rw [if_pos ⟨by omega, room⟩]
      rfl
    exact ⟨_, reached.step .allocPage trivial stepped⟩

end Lending

open Lending

/-- Pages are handed out once and found again as long as there are not more than the bitmap and
an item id have room for. -/
theorem pages_lent_iff {param : PoolParam} {start : MemPool}
    (begun : param.initialized = .ok start) :
    (∀ state, Reached Lending.step Allowed ⟨start, ∅⟩ state → Lending.Sound param state) ↔
      param.totalPages ≤ 2 ^ 16 := by
  obtain ⟨some, room, -⟩ := PoolParam.upTo_of_initialized begun
  constructor
  · intro sound
    obtain ⟨held, reached⟩ := reached_upTo begun room le_rfl
    have last := (sound _ reached).bits (param.totalPages - 1)
      (Or.inr (decide_eq_true (by omega)))
    unfold bitmapSize at last
    omega
  · intro few state reached
    have kept := reached.invariant (Kept param) (kept_start begun)
      (fun kept allowed ran => kept.step allowed ran)
    exact kept.sound room some few

/-- Megabytes, in pages of one, and a small hash table. -/
def megabytes (size : Nat) : PoolParam := ⟨size * 2 ^ 20, 2 ^ 20, 4, Nat.le_refl _⟩

theorem pages_lent_of_few : ∃ start, (megabytes 65536).initialized = .ok start ∧
    ∀ state, Reached Lending.step Allowed ⟨start, ∅⟩ state →
      Lending.Sound (megabytes 65536) state := by
  obtain ⟨start, begun, -⟩ : ∃ start, (megabytes 65536).initialized = .ok start ∧ True := by
    decide +kernel
  exact ⟨start, begun, (pages_lent_iff begun).mpr (by decide)⟩

/-- The page behind the last one that an id can tell is handed out. Items in it have the ids of
items in page 0, and its bit is not in the bitmap. -/
theorem page_beyond_ids : ∃ start state next, (megabytes 65537).initialized = .ok start ∧
    Reached Lending.step Allowed ⟨start, ∅⟩ state ∧
    state.pool.allocPage = .ok (next, some 65536) ∧ ¬ 65536 / 8 < bitmapSize ∧
    ∀ size offset slab, pageId (itemId size offset 65536 slab) = 0 := by
  obtain ⟨start, begun, -⟩ : ∃ start, (megabytes 65537).initialized = .ok start ∧ True := by
    decide +kernel
  obtain ⟨held, reached⟩ := @reached_upTo _ _ begun 65536 (by decide) (by decide)
  exact ⟨start, _, _, begun, reached, MemPool.allocPage_upTo (by decide), by decide,
    fun size offset slab => pageId_itemId size offset 65536 slab⟩

end Tair.Mdb
