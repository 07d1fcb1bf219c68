/-
The pool of free blocks. Its slots are mapped memory; a slot of size 0 is empty. The manager has a
map of the blocks, ordered by size alone, and a stack of the empty slots, both made anew from the
slots when the file is opened.
-/

import Tair.Library.Sorted

namespace Tair.Fdb

open Tair.Library

structure FreeBlock where
  size : BitVec 24
  offset : BitVec 40
deriving DecidableEq, Repr, Inhabited

/-- `free_blocks_manager`. The back of `available_pos` is the head of the list here. -/
structure BlockPool where
  freeBlocks : List FreeBlock
  freeBlocksMap : List (FreeBlock × Nat)
  availablePos : List Nat

namespace BlockPool

def notLarger (first second : FreeBlock × Nat) : Prop := first.1.size ≤ second.1.size

instance : IsTrans (FreeBlock × Nat) notLarger := ⟨fun _ _ _ => BitVec.le_trans⟩

def mapInsert (entry : FreeBlock × Nat) (map : List (FreeBlock × Nat)) : List (FreeBlock × Nat) :=
  map.takeWhile (fun other => decide (other.1.size ≤ entry.1.size)) ++
    entry :: map.dropWhile (fun other => decide (other.1.size ≤ entry.1.size))

def enter (pool : BlockPool) (slot : FreeBlock × Nat) : BlockPool :=
  if slot.1.size ≠ 0 then { pool with freeBlocksMap := mapInsert slot pool.freeBlocksMap }
  else { pool with availablePos := slot.2 :: pool.availablePos }

/-- The constructor on slots that are there. A new pool has only empty ones. -/
def construct (freeBlocks : List FreeBlock) : BlockPool :=
  freeBlocks.zipIdx.foldl enter ⟨freeBlocks, [], []⟩

/-- `remove_block`, where the iterator has these entries before and behind it. The slot keeps
its offset. -/
def removeBlock (pool : BlockPool) (before : List (FreeBlock × Nat)) (index : Nat)
    (behind : List (FreeBlock × Nat)) : BlockPool where
  freeBlocks := pool.freeBlocks.modify index (fun block => { block with size := 0 })
  freeBlocksMap := before ++ behind
  availablePos := index :: pool.availablePos

/-- The first entry goes when there is no empty slot. There has to be one. -/
def makeRoom (pool : BlockPool) : Option BlockPool :=
  match pool.availablePos, pool.freeBlocksMap with
  | _ :: _, _ => some pool
  | [], (_, index) :: behind => some (pool.removeBlock [] index behind)
  | [], [] => none

def fillSlot (block : FreeBlock) (pool : BlockPool) : Option BlockPool :=
  match pool.availablePos with
  | [] => none
  | index :: rest => some
      { freeBlocks := pool.freeBlocks.set index block
        freeBlocksMap := mapInsert (block, index) pool.freeBlocksMap
        availablePos := rest }

def insert (pool : BlockPool) (block : FreeBlock) : Option BlockPool :=
  if block.size = 0 then some pool else pool.makeRoom.bind (fillSlot block)

/-- What is before the lower bound. The key has 24 bits of the size that is asked for. -/
def below (size : Nat) (entry : FreeBlock × Nat) : Bool := entry.1.size < BitVec.ofNat 24 size

def search (pool : BlockPool) (size : Nat) : Option (FreeBlock × BlockPool) :=
  match pool.freeBlocksMap.dropWhile (below size) with
  | [] => none
  | (block, index) :: behind =>
    some (block, pool.removeBlock (pool.freeBlocksMap.takeWhile (below size)) index behind)

/-! ### Consistent pools -/

def used (slot : FreeBlock × Nat) : Bool := slot.1.size ≠ 0

/-- Each slot in use is in the map once, with its block, and each empty one on the stack. -/
structure Consistent (pool : BlockPool) : Prop where
  ordered : pool.freeBlocksMap.Pairwise notLarger
  stored : pool.freeBlocksMap.Perm (pool.freeBlocks.zipIdx.filter used)
  empty : pool.availablePos.Perm
    ((pool.freeBlocks.zipIdx.filter (fun slot => !used slot)).map Prod.snd)

def blocks (pool : BlockPool) : List FreeBlock := pool.freeBlocksMap.map Prod.fst

theorem mapInsert_perm (entry : FreeBlock × Nat) (map : List (FreeBlock × Nat)) :
    (mapInsert entry map).Perm (entry :: map) := by
  refine List.perm_middle.trans (.cons entry ?_)
  rw [List.takeWhile_append_dropWhile]

theorem mapInsert_ordered {map : List (FreeBlock × Nat)} (ordered : map.Pairwise notLarger)
    (entry : FreeBlock × Nat) : (mapInsert entry map).Pairwise notLarger := by
  refine Sorted.pairwise_insert ordered ?_ ?_
  · intro other passed
    have low : other.1.size ≤ entry.1.size := of_decide_eq_true passed
    exact low
  · intro other failed
    have larger : ¬other.1.size ≤ entry.1.size := of_decide_eq_false failed
    exact BitVec.le_of_lt (BitVec.not_le.mp larger)

theorem foldl_enter (slots : List (FreeBlock × Nat)) (pool : BlockPool)
    (ordered : pool.freeBlocksMap.Pairwise notLarger) :
    (slots.foldl enter pool).freeBlocks = pool.freeBlocks ∧
      (slots.foldl enter pool).freeBlocksMap.Pairwise notLarger ∧
      (slots.foldl enter pool).freeBlocksMap.Perm (slots.filter used ++ pool.freeBlocksMap) ∧
      (slots.foldl enter pool).availablePos.Perm
        ((slots.filter (fun slot => !used slot)).map Prod.snd ++ pool.availablePos) := by
  induction slots generalizing pool with
  | nil => exact ⟨rfl, ordered, .refl _, .refl _⟩
  | cons slot rest ih =>
    rw [List.foldl_cons]
    by_cases use : slot.1.size ≠ 0
    · rw [enter, if_pos use, List.filter_cons_of_pos (by simpa [used] using use),
        List.filter_cons_of_neg (by simpa [used] using use)]
      obtain ⟨same, sorted, map, empty⟩ := ih { pool with
        freeBlocksMap := mapInsert slot pool.freeBlocksMap } (mapInsert_ordered ordered slot)
      refine ⟨same, sorted, map.trans ?_, empty⟩
      exact ((mapInsert_perm slot _).append_left _).trans List.perm_middle
    · rw [enter, if_neg use, List.filter_cons_of_neg (by simpa [used] using use),
        List.filter_cons_of_pos (by simpa [used] using use)]
      obtain ⟨same, sorted, map, empty⟩ := ih { pool with
        availablePos := slot.2 :: pool.availablePos } ordered
      exact ⟨same, sorted, map, empty.trans List.perm_middle⟩

theorem construct_consistent (freeBlocks : List FreeBlock) :
    (construct freeBlocks).Consistent ∧ (construct freeBlocks).freeBlocks = freeBlocks := by
  obtain ⟨same, sorted, map, empty⟩ :=
    foldl_enter freeBlocks.zipIdx ⟨freeBlocks, [], []⟩ .nil
  rw [List.append_nil] at map empty
  refine ⟨⟨sorted, ?_, ?_⟩, same⟩
  · rw [construct, same]
    exact map
  · rw [construct, same]
    exact empty

theorem slots_split {freeBlocks : List FreeBlock} {block : FreeBlock} {index : Nat}
    (there : freeBlocks[index]? = some block) (new : FreeBlock) :
    ∃ others, freeBlocks.zipIdx.Perm ((block, index) :: others) ∧
      (freeBlocks.set index new).zipIdx.Perm ((new, index) :: others) := by
  obtain ⟨short, here⟩ := List.getElem?_eq_some_iff.mp there
  obtain ⟨before, behind, split, length, changed⟩ := @List.exists_of_set _ index new freeBlocks short
  rw [here] at split
  have around (middle : FreeBlock) : (before ++ middle :: behind).zipIdx.Perm
      ((middle, index) :: (before.zipIdx ++ behind.zipIdx (index + 1))) := by
    rw [List.zipIdx_append, List.zipIdx_cons, length, Nat.zero_add]
    exact List.perm_middle
  rw [changed, split]
  exact ⟨_, around block, around new⟩

variable {pool : BlockPool} {before behind : List (FreeBlock × Nat)} {block : FreeBlock}
  {index : Nat}

theorem Consistent.remove (sound : pool.Consistent)
    (map : pool.freeBlocksMap = before ++ (block, index) :: behind) :
    (pool.removeBlock before index behind).Consistent := by
  obtain ⟨ordered, stored, empty⟩ := sound
  rw [map] at ordered stored
  have member := stored.subset (List.mem_append_right _ List.mem_cons_self)
  obtain ⟨inPool, use⟩ := List.mem_filter.mp member
  have there := List.mem_zipIdx_iff_getElem?.mp inPool
  obtain ⟨others, old, new⟩ := slots_split there { block with size := 0 }
  have slots : (pool.removeBlock before index behind).freeBlocks =
      pool.freeBlocks.set index { block with size := 0 } := by
    change pool.freeBlocks.modify index _ = _
    rw [List.modify_eq_set_getElem?, there]
    rfl
  have mapped := (List.perm_middle.symm.trans stored).trans (old.filter used)
  rw [List.filter_cons_of_pos use] at mapped
  have freed := empty.trans ((old.filter (fun slot => !used slot)).map Prod.snd)
  rw [List.filter_cons_of_neg (by simpa using use)] at freed
  refine ⟨ordered.sublist ((List.sublist_cons_self _ _).append_left before), ?_, ?_⟩
  · rw [slots]
    exact mapped.cons_inv.trans (new.filter used).symm
  · rw [slots]
    exact (freed.cons index).trans ((new.filter (fun slot => !used slot)).map Prod.snd).symm

theorem Consistent.fill {rest : List Nat} (sound : pool.Consistent)
    (available : pool.availablePos = index :: rest) (use : block.size ≠ 0) :
    ∃ after, pool.fillSlot block = some after ∧ after.Consistent ∧
      after.freeBlocks.length = pool.freeBlocks.length ∧
      after.blocks.Perm (block :: pool.blocks) := by
  obtain ⟨ordered, stored, empty⟩ := sound
  rw [available] at empty
  obtain ⟨⟨last, slot⟩, member, same⟩ := List.mem_map.mp (empty.subset List.mem_cons_self)
  cases same
  obtain ⟨inPool, unused⟩ := List.mem_filter.mp member
  obtain ⟨others, old, new⟩ := slots_split (List.mem_zipIdx_iff_getElem?.mp inPool) block
  have mapped := stored.trans (old.filter used)
  rw [List.filter_cons_of_neg (by simpa using unused)] at mapped
  have freed := empty.trans ((old.filter (fun slot => !used slot)).map Prod.snd)
  rw [@List.filter_cons_of_pos _ (fun slot => !used slot) (last, slot) _ unused] at freed
  have inUse : used (block, slot) = true := decide_eq_true use
  have filled : pool.fillSlot block = some ⟨pool.freeBlocks.set slot block,
      mapInsert (block, slot) pool.freeBlocksMap, rest⟩ := by
    rw [fillSlot, available]
  refine ⟨_, filled, ⟨mapInsert_ordered ordered _, (mapInsert_perm _ _).trans ?_,
    freed.cons_inv.trans ?_⟩, List.length_set, (mapInsert_perm _ _).map Prod.fst⟩
  · have now := new.filter used
    rw [List.filter_cons_of_pos inUse] at now
    exact (mapped.cons _).trans now.symm
  · have now := new.filter (fun slot => !used slot)
    rw [List.filter_cons_of_neg (by simp [inUse])] at now
    exact (now.map Prod.snd).symm

theorem Consistent.full_iff (sound : pool.Consistent) :
    pool.blocks.length = pool.freeBlocks.length ↔ pool.availablePos = [] := by
  have stored := sound.stored.length_eq
  have empty := sound.empty.length_eq
  have slots := @List.length_eq_length_filter_add _ pool.freeBlocks.zipIdx used
  rw [List.length_map] at empty
  rw [List.length_zipIdx] at slots
  rw [blocks, List.length_map, ← List.length_eq_zero_iff]
  omega

def Inserted (pool : BlockPool) (block : FreeBlock) (after : BlockPool) : Prop :=
  if pool.blocks.length = pool.freeBlocks.length then
    ∃ smallest ∈ pool.blocks, (∀ other ∈ pool.blocks, smallest.size ≤ other.size) ∧
      (smallest :: after.blocks).Perm (block :: pool.blocks)
  else after.blocks.Perm (block :: pool.blocks)

theorem Consistent.insert (sound : pool.Consistent) (slots : pool.freeBlocks ≠ [])
    (use : block.size ≠ 0) : ∃ after, pool.insert block = some after ∧ after.Consistent ∧
      after.freeBlocks.length = pool.freeBlocks.length ∧ pool.Inserted block after := by
  rw [BlockPool.insert, if_neg use]
  cases available : pool.availablePos with
  | cons index rest =>
    obtain ⟨after, filled, kept, length, contents⟩ := sound.fill available use
    have room : pool.makeRoom = some pool := by rw [makeRoom, available]
    have notFull : pool.blocks.length ≠ pool.freeBlocks.length := by
      rw [Ne, sound.full_iff, available]
      exact List.cons_ne_nil index rest
    rw [room]
    refine ⟨after, filled, kept, length, ?_⟩
    rw [Inserted, if_neg notFull]
    exact contents
  | nil =>
    have full := sound.full_iff.mpr available
    cases map : pool.freeBlocksMap with
    | nil =>
      rw [blocks, map] at full
      exact absurd (List.length_eq_zero_iff.mp full.symm) slots
    | cons first behind =>
      obtain ⟨smallest, index⟩ := first
      have room : pool.makeRoom = some (pool.removeBlock [] index behind) := by
        rw [makeRoom, available, map]
      have bare := @Consistent.remove pool [] behind smallest index sound map
      obtain ⟨after, filled, kept, length, contents⟩ := bare.fill rfl use
      rw [room]
      refine ⟨after, filled, kept, length.trans (List.length_modify ..), ?_⟩
      rw [Inserted, if_pos full]
      refine ⟨smallest, ?_, ?_, ?_⟩
      · rw [blocks, map]
        exact List.mem_cons_self
      · intro other member
        rw [blocks, map] at member
        rcases List.mem_cons.mp member with here | later
        · rw [here]
          exact BitVec.le_refl _
        · obtain ⟨entry, listed, rfl⟩ := List.mem_map.mp later
          have ordered := sound.ordered
          rw [map] at ordered
          exact (List.pairwise_cons.mp ordered).1 entry listed
      · have before : pool.blocks = smallest :: behind.map Prod.fst := by
          rw [blocks, map]
          rfl
        rw [before]
        exact (contents.cons smallest).trans (.swap block smallest _)

/-- What a search has found: a smallest one of the blocks that are large enough, and that one
goes. -/
def Found (pool : BlockPool) (size : Nat) (block : FreeBlock) (after : BlockPool) : Prop :=
  size ≤ block.size.toNat ∧
    (∀ other ∈ pool.blocks, size ≤ other.size.toNat → block.size ≤ other.size) ∧
    pool.blocks.Perm (block :: after.blocks)

theorem search_split (pool : BlockPool) (size : Nat) :
    (pool.search size = none ∧ ∀ block ∈ pool.blocks, block.size < BitVec.ofNat 24 size) ∨
    ∃ before block index behind, pool.freeBlocksMap = before ++ (block, index) :: behind ∧
      pool.search size = some (block, pool.removeBlock before index behind) ∧
      ¬block.size < BitVec.ofNat 24 size ∧
      ∀ entry ∈ before, entry.1.size < BitVec.ofNat 24 size := by
  have passed (entry : FreeBlock × Nat)
      (member : entry ∈ pool.freeBlocksMap.takeWhile (below size)) :
      entry.1.size < BitVec.ofNat 24 size := by
    have holds : below size entry = true := List.mem_takeWhile_imp member
    exact of_decide_eq_true holds
  have whole : pool.freeBlocksMap.takeWhile (below size) ++
      pool.freeBlocksMap.dropWhile (below size) = pool.freeBlocksMap :=
    List.takeWhile_append_dropWhile
  unfold search
  cases rest : pool.freeBlocksMap.dropWhile (below size) with
  | nil =>
    rw [rest, List.append_nil] at whole
    refine .inl ⟨rfl, fun block member => ?_⟩
    obtain ⟨entry, listed, rfl⟩ := List.mem_map.mp member
    rw [← whole] at listed
    exact passed entry listed
  | cons first behind =>
    obtain ⟨block, index⟩ := first
    rw [rest] at whole
    refine .inr ⟨_, block, index, behind, whole.symm, rfl, ?_, passed⟩
    have ended := List.head?_dropWhile_not (below size) pool.freeBlocksMap
    rw [rest] at ended
    simpa [below] using ended

theorem Consistent.search {size : Nat} {after : BlockPool} (sound : pool.Consistent)
    (searched : pool.search size = some (block, after)) :
    after.Consistent ∧ after.freeBlocks.length = pool.freeBlocks.length ∧
      pool.blocks.Perm (block :: after.blocks) := by
  obtain ⟨missing, -⟩ | ⟨before, _, index, behind, map, found, -⟩ := pool.search_split size
  · rw [searched] at missing
    cases missing
  · rw [searched] at found
    cases found
    refine ⟨sound.remove map, List.length_modify .., ?_⟩
    rw [blocks, map, List.map_append]
    exact (List.perm_middle.trans (.of_eq (congrArg _ List.map_append.symm)))

theorem Consistent.found {size : Nat} (sound : pool.Consistent)
    (enough : ∃ block ∈ pool.blocks, size ≤ block.size.toNat) :
    ∃ block after, pool.search size = some (block, after) ∧ pool.Found size block after := by
  obtain ⟨large, listed, fits⟩ := enough
  have small : size < 2 ^ 24 := lt_of_le_of_lt fits large.size.isLt
  have low (block : FreeBlock) : block.size < BitVec.ofNat 24 size ↔ block.size.toNat < size := by
    rw [BitVec.lt_def, BitVec.toNat_ofNat, Nat.mod_eq_of_lt small]
  obtain ⟨-, lower⟩ | ⟨before, block, index, behind, map, found, reaches, lower⟩ :=
    pool.search_split size
  · exact absurd ((low large).mp (lower large listed)) fits.not_gt
  · have ordered := sound.ordered
    rw [map] at ordered
    refine ⟨block, _, found, not_lt.mp (mt (low block).mpr reaches), ?_, (sound.search found).2.2⟩
    intro other member fitting
    obtain ⟨entry, entryListed, rfl⟩ := List.mem_map.mp member
    rw [map] at entryListed
    rcases List.mem_append.mp entryListed with prior | later
    · exact absurd ((low entry.1).mp (lower entry prior)) fitting.not_gt
    · rcases List.mem_cons.mp later with here | behindIt
      · rw [here]
        exact BitVec.le_refl _
      · exact (List.pairwise_cons.mp (List.pairwise_append.mp ordered).2.1).1 entry behindIt

theorem search_none {size : Nat} (small : size < 2 ^ 24)
    (lower : ∀ block ∈ pool.blocks, block.size.toNat < size) : pool.search size = none := by
  obtain ⟨missing, -⟩ | ⟨before, block, index, behind, map, -, reaches, -⟩ :=
    pool.search_split size
  · exact missing
  · refine absurd ?_ reaches
    rw [BitVec.lt_def, BitVec.toNat_ofNat, Nat.mod_eq_of_lt small]
    refine lower block (List.mem_map.mpr ⟨(block, index), ?_, rfl⟩)
    rw [map]
    exact List.mem_append_right _ List.mem_cons_self

theorem Consistent.reopen (sound : pool.Consistent) :
    (construct pool.freeBlocks).blocks.Perm pool.blocks := by
  obtain ⟨anew, slots⟩ := construct_consistent pool.freeBlocks
  have stored := anew.stored
  rw [slots] at stored
  exact (stored.trans sound.stored.symm).map Prod.fst

/-! ### Runs -/

inductive Request where
  | insert (block : FreeBlock)
  | search (size : Nat)

/-- A pool with what has come into it, the blocks at its start included, and what searches
have given out. -/
structure Session where
  pool : BlockPool
  inserted : List FreeBlock
  returned : List FreeBlock

namespace Session

def start (slots : List FreeBlock) : Session := ⟨construct slots, (construct slots).blocks, []⟩

def step (session : Session) : Request → Option Session
  | .insert block => (session.pool.insert block).map (fun pool =>
    { session with pool, inserted := block :: session.inserted })
  | .search size =>
    match session.pool.search size with
    | none => some session
    | some (block, pool) => some { session with pool, returned := block :: session.returned }

structure Kept (session : Session) : Prop where
  consistent : session.pool.Consistent
  slots : session.pool.freeBlocks ≠ []
  once : ∃ dropped, session.inserted.Perm (dropped ++ (session.returned ++ session.pool.blocks))

theorem Kept.start {slots : List FreeBlock} (some : slots ≠ []) : (start slots).Kept := by
  obtain ⟨sound, same⟩ := construct_consistent slots
  exact ⟨sound, same.symm ▸ some, [], .refl _⟩

theorem ne_nil_of_length {first second : List FreeBlock} (same : second.length = first.length)
    (some : first ≠ []) : second ≠ [] :=
  List.ne_nil_of_length_pos (same ▸ List.length_pos_of_ne_nil some)

theorem Kept.insert {session : Session} (kept : session.Kept) (block : FreeBlock) :
    ∃ next, session.step (.insert block) = some next ∧ next.Kept := by
  obtain ⟨sound, slots, lost, all⟩ := kept
  rw [step]
  by_cases zero : block.size = 0
  · rw [BlockPool.insert, if_pos zero]
    exact ⟨_, rfl, sound, slots, block :: lost, all.cons block⟩
  · obtain ⟨after, inserted, next, length, contents⟩ := sound.insert slots zero
    rw [inserted]
    -- a block that was lost now is one more of those that were lost
    obtain ⟨gone, contents⟩ :
        ∃ gone, (gone ++ after.blocks).Perm (block :: session.pool.blocks) := by
      unfold Inserted at contents
      split_ifs at contents
      · obtain ⟨smallest, -, -, contents⟩ := contents
        exact ⟨[smallest], contents⟩
      · exact ⟨[], contents⟩
    refine ⟨_, rfl, next, ne_nil_of_length length slots, gone ++ lost, ?_⟩
    rw [List.perm_iff_count] at all contents ⊢
    intro other
    have before := all other
    have now := contents other
    simp only [List.count_append, List.count_cons] at before now ⊢
    omega

theorem Kept.search {session : Session} (kept : session.Kept) (size : Nat) :
    ∃ next, session.step (.search size) = some next ∧ next.Kept := by
  rw [step]
  cases searched : session.pool.search size with
  | none => exact ⟨session, rfl, kept⟩
  | some result =>
    obtain ⟨block, after⟩ := result
    obtain ⟨sound, slots, lost, all⟩ := kept
    obtain ⟨next, length, contents⟩ := sound.search searched
    refine ⟨_, rfl, next, ne_nil_of_length length slots, lost, all.trans ?_⟩
    refine List.Perm.append_left lost ?_
    exact (contents.append_left session.returned).trans List.perm_middle

theorem Kept.run {session : Session} (kept : session.Kept) (requests : List Request) :
    ∃ final, requests.foldlM step session = some final ∧ final.Kept := by
  induction requests generalizing session with
  | nil => exact ⟨session, rfl, kept⟩
  | cons request rest ih =>
    obtain ⟨next, stepped, nextKept⟩ : ∃ next, session.step request = some next ∧ next.Kept := by
      cases request with
      | insert block => exact kept.insert block
      | search size => exact kept.search size
    obtain ⟨final, ran, finalKept⟩ := ih nextKept
    refine ⟨final, ?_, finalKept⟩
    rw [List.foldlM_cons, stepped]
    exact ran

/-- In every run the map, the slots and the stack agree, a full pool drops one of its smallest
blocks for a new one, a search takes out a smallest block that is large enough, nothing is given
out twice, and opening the pool again finds the same blocks. -/
theorem blocks_kept {slots : List FreeBlock} (some : slots ≠ []) (requests : List Request) :
    ∃ final, requests.foldlM step (Session.start slots) = Option.some final ∧
      final.pool.Consistent ∧
      (∀ block : FreeBlock, block.size ≠ 0 →
        ∃ after, final.pool.insert block = Option.some after ∧ final.pool.Inserted block after) ∧
      (∀ size, (∃ block ∈ final.pool.blocks, size ≤ block.size.toNat) →
        ∃ block after, final.pool.search size = Option.some (block, after) ∧
          final.pool.Found size block after) ∧
      (∀ size < 2 ^ 24, (∀ block ∈ final.pool.blocks, block.size.toNat < size) →
        final.pool.search size = none) ∧
      (∃ dropped, final.inserted.Perm (dropped ++ (final.returned ++ final.pool.blocks))) ∧
      (construct final.pool.freeBlocks).blocks.Perm final.pool.blocks := by
  obtain ⟨final, ran, consistent, nonempty, once⟩ := (Kept.start some).run requests
  refine ⟨final, ran, consistent, fun block use => ?_, fun size => consistent.found,
    fun size small lower => search_none small lower, once, consistent.reopen⟩
  obtain ⟨after, inserted, -, -, contents⟩ := consistent.insert nonempty use
  exact ⟨after, inserted, contents⟩

/-- A pool of one slot that has dropped a block and given one out. -/
theorem blocks_kept_one :
    ∃ final, [Request.insert ⟨8, 0⟩, .insert ⟨16, 64⟩, .search 12].foldlM step
        (Session.start [⟨0, 0⟩]) = some final ∧
      final.returned = [⟨16, 64⟩] ∧ (construct final.pool.freeBlocks).blocks = [] := by
  obtain ⟨final, ran, -, -, -, -, -, reopened⟩ :=
    blocks_kept (List.cons_ne_nil (⟨0, 0⟩ : FreeBlock) [])
      [Request.insert ⟨8, 0⟩, .insert ⟨16, 64⟩, .search 12]
  have computed : ([Request.insert ⟨8, 0⟩, .insert ⟨16, 64⟩, .search 12].foldlM step
      (Session.start [⟨0, 0⟩])).map (fun final => (final.returned, final.pool.blocks)) =
      some ([⟨16, 64⟩], []) := by
    decide
  rw [ran] at computed
  obtain ⟨returned, stored⟩ := Prod.mk.inj (Option.some.inj computed)
  rw [stored] at reopened
  exact ⟨final, ran, returned, reopened.eq_nil⟩

end Session

end BlockPool

end Tair.Fdb
