/-
How the masters are shared out. The quotas add up to the number of buckets, and the round of the
masters replaces each master over its quota by a server below its own. So nobody is over
afterwards, nor under, since every bucket has one master.
-/

import Tair.ConfigServer.Placement
import Tair.ConfigServer.TokenCounts

namespace Tair.ConfigServer

open Std Tair.Library

variable {shape : Shape} {δ : Type}

/-! ### The servers as a finite set -/

namespace ServerList

def finset (servers : ServerList) : Finset ServerIdType := servers.toList.toFinset

@[simp] theorem mem_finset {servers : ServerList} {node : ServerIdType} :
    node ∈ finset servers ↔ node ∈ servers := by
  unfold finset
  rw [List.mem_toFinset, TreeSet.mem_toList]

theorem nodup_toList (servers : ServerList) : servers.toList.Nodup :=
  servers.distinct_toList.imp (fun ne same =>
    ne (LawfulEqCmp.compare_eq_iff_eq.mpr same))

theorem card_finset (servers : ServerList) : (finset servers).card = servers.size := by
  unfold finset
  rw [List.toFinset_card_of_nodup (nodup_toList servers), TreeSet.length_toList]

end ServerList

/-! ### The loop that hands out the quotas -/

section Quotas

variable (more : ServerIdType → (i maxS : Int) → Bool) (tokensMin : Int)
  (servers : List ServerIdType)

def extras : List ServerIdType → (i maxS : Int) → Int
  | [], _, _ => 0
  | node :: rest, i, maxS =>
    if more node i maxS then extras rest (i + 1) (maxS + 1) + 1 else extras rest (i + 1) maxS

theorem assignCapable_of_notMem {node : ServerIdType}
    (absent : node ∉ servers) (i maxS : Int) (capable : TokenCount) :
    (assignCapable more tokensMin servers i maxS capable).getD node 0 = capable.getD node 0 := by
  induction servers generalizing i maxS capable with
  | nil => rfl
  | cons head rest ih =>
    have ne : head ≠ node := fun same => absent (same ▸ List.mem_cons_self)
    have later : node ∉ rest := fun member => absent (List.mem_cons_of_mem _ member)
    have skip : ∀ quota, (capable.insert head quota).getD node 0 = capable.getD node 0 := by
      intro quota
      rw [TreeMap.getD_insert, if_neg (fun same => ne (LawfulEqCmp.compare_eq_iff_eq.mp same))]
    unfold assignCapable
    split_ifs
    · rw [ih later, skip]
    · rw [ih later, skip]

theorem assignCapable_head {head : ServerIdType} {rest : List ServerIdType} (fresh : head ∉ rest)
    (i maxS : Int) (capable : TokenCount) :
    (assignCapable more tokensMin (head :: rest) i maxS capable).getD head 0 =
      if more head i maxS then tokensMin + 1 else tokensMin := by
  unfold assignCapable
  split_ifs
  · rw [assignCapable_of_notMem more tokensMin rest fresh, TreeMap.getD_insert_self]
  · rw [assignCapable_of_notMem more tokensMin rest fresh, TreeMap.getD_insert_self]

theorem assignCapable_cases {node : ServerIdType}
    (member : node ∈ servers) (i maxS : Int) (capable : TokenCount) (apart : servers.Nodup) :
    (assignCapable more tokensMin servers i maxS capable).getD node 0 = tokensMin ∨
      (assignCapable more tokensMin servers i maxS capable).getD node 0 = tokensMin + 1 := by
  induction servers generalizing i maxS capable with
  | nil => exact absurd member List.not_mem_nil
  | cons head rest ih =>
    obtain ⟨fresh, others⟩ := List.nodup_cons.mp apart
    rcases List.mem_cons.mp member with here | later
    · rw [here, assignCapable_head more tokensMin fresh]
      split_ifs
      · exact Or.inr rfl
      · exact Or.inl rfl
    · unfold assignCapable
      split_ifs
      · exact ih later _ _ _ others
      · exact ih later _ _ _ others

theorem countP_assignCapable (i maxS : Int) (capable : TokenCount) (apart : servers.Nodup) :
    (servers.countP (fun node =>
        decide ((assignCapable more tokensMin servers i maxS capable).getD node 0 = tokensMin + 1)) :
      Int) = extras more servers i maxS := by
  induction servers generalizing i maxS capable with
  | nil => rfl
  | cons head rest ih =>
    obtain ⟨fresh, others⟩ := List.nodup_cons.mp apart
    rw [List.countP_cons, assignCapable_head more tokensMin fresh]
    unfold assignCapable extras
    by_cases larger : more head i maxS = true
    · simp only [if_pos larger, decide_true, if_true]
      push_cast
      rw [ih _ _ _ others]
    · have small : decide (tokensMin = tokensMin + 1) = false := decide_eq_false (by omega)
      simp only [if_neg larger, small, Bool.false_eq_true, if_false, Nat.add_zero]
      exact ih _ _ _ others

/-- Quotas of two sizes add up to the small size for everybody and one for each
server with the large one. -/
theorem sum_two_sizes (quota : ServerIdType → Int)
    (sizes : ∀ node ∈ servers, quota node = tokensMin ∨ quota node = tokensMin + 1) :
    (servers.map quota).sum =
      tokensMin * servers.length + servers.countP (fun node => decide (quota node = tokensMin + 1)) := by
  induction servers with
  | nil => simp
  | cons head rest ih =>
    have tail := ih (fun node member => sizes node (List.mem_cons_of_mem _ member))
    rw [List.map_cons, List.sum_cons, tail, List.countP_cons, List.length_cons]
    rcases sizes head List.mem_cons_self with small | large
    · have notLarge : decide (quota head = tokensMin + 1) = false := decide_eq_false (by omega)
      rw [if_neg (by rw [notLarge]; exact Bool.false_ne_true), small]
      push_cast
      ring
    · rw [if_pos (decide_eq_true large), large]
      push_cast
      ring

end Quotas

/-! ### The round of the masters -/

/-- A strategy that takes a master only below its quota, or at its quota when it
is the master already. -/
structure Strategy.CapsMasters (strategy : Strategy shape δ) : Prop where
  below : ∀ {builder node idx table level nodeInUse},
    strategy.isThisNodeOK builder node shape.master idx table level nodeInUse = .nodeOK →
      builder.mtokens.count node < builder.mtokens.capable node + if nodeInUse then 1 else 0

/-- No available server is over its quota, except those that are the master of
none of the buckets visited so far. -/
def Relieved (work : Work shape δ) (visited : List shape.Bucket) : Prop :=
  ∀ node ∈ work.builder.availableServer,
    (masters work.table node : Int) ≤ work.builder.mtokens.capable node ∨
      ∀ idx ∈ visited, work.row idx shape.master ≠ node

section

variable {work : Work shape δ} {strategy : Strategy shape δ} (caps : strategy.CapsMasters)
  (counted : Counted work)

include caps counted

/-- A visit of the master line leaves a master within its quota there, and no
other server gains a master. -/
theorem master_visit {consider : Consider} {idx : shape.Bucket} {next : Work shape δ}
    (ran : work.checkNode strategy consider idx shape.master = .ok next) :
    (next.row idx shape.master ∈ work.builder.availableServer →
      (masters next.table (next.row idx shape.master) : Int) ≤
        work.builder.mtokens.capable (next.row idx shape.master)) ∧
      ∀ node ∈ work.builder.availableServer, node ≠ next.row idx shape.master →
        masters next.table node ≤ masters work.table node := by
  have step := Work.checkNode_step strategy consider idx work shape.master
  rw [ran] at step
  cases step with
  | accept good =>
    refine ⟨fun member => ?_, fun _ _ _ => Nat.le_refl _⟩
    have below := caps.below good
    have count : work.builder.mtokens.count (work.entry shape.master idx) =
        masters work.table (work.entry shape.master idx) := counted.mtokens.counts _ member
    rw [if_pos rfl, count] at below
    exact Int.lt_add_one_iff.mp below
  | swap bad isMaster other slave alive room =>
    have after := masters_swapMaster work idx slave
    rw [work.master_swapMaster idx slave]
    refine ⟨fun member => ?_, fun node _ ne => ?_⟩
    · rw [counted.mtokens.counts _ member] at room
      rw [after, if_pos rfl]
      split_ifs <;> omega
    · have count := after node
      rw [if_neg (Ne.symm ne)] at count
      split_ifs at count <;> omega
  | replace bad node search found =>
    obtain ⟨level, good⟩ := Strategy.Placing.search_passes search found
    have clean := counted.invaliadNode shape.master idx
    set bare := work.invaliadNode shape.master idx with isBare
    have servers : bare.builder.availableServer = work.builder.availableServer :=
      congrArg Setup.availableServer (work.setup_invaliadNode shape.master idx)
    have quotas : bare.builder.mtokens.capable node =
        work.builder.mtokens.capable node :=
      congrArg (fun setup : Setup δ => setup.masterServerCapable.getD node 0)
        (work.setup_invaliadNode shape.master idx)
    have master : ((bare.updateNode shape.master idx node).accountNode strategy node).row idx
        shape.master = node := Grid.get_set_self _ _ _ _
    have filled : ∀ server ∈ work.builder.availableServer,
        (masters ((bare.updateNode shape.master idx node).accountNode strategy node).table server :
          Int) = masters bare.table server + if node = server then 1 else 0 := by
      intro server member
      rw [← servers] at member
      have vacant := counted.vacant_invaliadNode shape.master idx
      have ne : bare.table.get shape.master idx ≠ server := by
        intro same
        rw [← same] at member
        exact vacant member
      rw [Work.table_accountNode, Work.table_updateNode, masters_set_master, if_neg ne,
        Int.sub_zero]
    rw [master]
    refine ⟨fun member => ?_, fun server member ne => ?_⟩
    · have below := caps.below good
      rw [quotas, clean.mtokens.counts node (servers ▸ member), if_neg Bool.false_ne_true] at below
      rw [filled node member, if_pos rfl]
      omega
    · have count := filled server member
      have less : (masters bare.table server : Int) =
          masters work.table server -
            (if work.table.get shape.master idx = server then 1 else 0) + 0 := by
        rw [isBare, Work.table_invaliadNode, masters_set_master, if_neg (counted.hole_ne member _)]
      rw [if_neg (Ne.symm ne)] at count
      split_ifs at less <;> omega

theorem relieved_visit {consider : Consider} {idx : shape.Bucket} {next : Work shape δ}
    {visited : List shape.Bucket} (relieved : Relieved work visited)
    (ran : work.checkNode strategy consider idx shape.master = .ok next) :
    Relieved next (visited ++ [idx]) := by
  obtain ⟨within, others⟩ := master_visit caps counted ran
  have frame := Work.checkNode_frame strategy work consider idx shape.master
  rw [ran] at frame
  have servers : next.builder.availableServer = work.builder.availableServer :=
    congrArg Setup.availableServer frame.1
  have quotas : ∀ node, next.builder.mtokens.capable node = work.builder.mtokens.capable node :=
    fun node => congrArg (fun setup : Setup δ => setup.masterServerCapable.getD node 0) frame.1
  intro node member
  rw [servers] at member
  rw [quotas]
  by_cases here : node = next.row idx shape.master
  · rw [here] at member ⊢
    exact Or.inl (within member)
  · rcases relieved node member with below | absent
    · have less := others node member here
      exact Or.inl (by omega)
    · refine Or.inr (fun bucket inside => ?_)
      by_cases same : bucket = idx
      · rw [same]
        exact Ne.symm here
      · have unchanged : next.row bucket = work.row bucket := frame.2 bucket same
        rw [unchanged]
        rcases List.mem_append.mp inside with prior | last
        · exact absent bucket prior
        · exact absurd (List.mem_singleton.mp last) same

theorem masters_le_capable {mastered : Work shape δ}
    (nonneg : ∀ node ∈ work.builder.availableServer, 0 ≤ work.builder.mtokens.capable node)
    (done : work.checkRound strategy 0 = .ok mastered) {node : ServerIdType}
    (member : node ∈ work.builder.availableServer) :
    (masters mastered.table node : Int) ≤ work.builder.mtokens.capable node := by
  have walked := Scan.foldlM_ok
    (fun visited (state : Work shape δ) =>
      state.setup = work.setup ∧ Counted state ∧ Relieved state visited)
    shape.buckets work
    ⟨rfl, counted, fun _ _ => Or.inr (fun _ wrong => absurd wrong List.not_mem_nil)⟩ ?_ done
  · obtain ⟨setup, -, relieved⟩ := walked
    have servers : mastered.builder.availableServer = work.builder.availableServer :=
      congrArg Setup.availableServer setup
    have quota : mastered.builder.mtokens.capable node = work.builder.mtokens.capable node :=
      congrArg (fun setup : Setup δ => setup.masterServerCapable.getD node 0) setup
    rcases relieved node (servers ▸ member) with below | absent
    · rw [quota] at below
      exact below
    · have none : masters mastered.table node = 0 := by
        refine Nat.eq_zero_of_not_pos (fun pos => ?_)
        obtain ⟨idx, same⟩ := Tally.tally_pos.mp pos
        exact absent idx (Shape.mem_buckets idx) same
      rw [none]
      exact nonneg node member
  · intro before idx after state next split kept ran
    have visit := Work.mastersBucket_ok ran
    have frame := Work.checkNode_frame strategy state .base idx shape.master
    have recounted := kept.2.1.checkNode strategy .base idx shape.master
    rw [visit] at frame recounted
    exact ⟨frame.1.trans kept.1, recounted, relieved_visit caps kept.2.1 kept.2.2 visit⟩

end

theorem masters_eq_capable {strategy : Strategy shape δ}
    {Spread : δ → (shape.Line → ServerIdType) → Prop} (caps : strategy.CapsMasters)
    (placing : strategy.Placing Spread) {work final : Work shape δ} (counted : Counted work)
    (nonneg : ∀ node ∈ work.builder.availableServer, 0 ≤ work.builder.mtokens.capable node)
    (total : ∑ node ∈ ServerList.finset work.builder.availableServer,
      work.builder.mtokens.capable node = shape.bucketCount)
    (done : work.checkTable strategy = .ok final) {node : ServerIdType}
    (member : node ∈ work.builder.availableServer) :
    (masters final.table node : Int) = work.builder.mtokens.capable node := by
  obtain ⟨mastered, first, second⟩ := Work.checkTable_ok done
  have kept : ∀ server, masters final.table server = masters mastered.table server := by
    intro server
    unfold masters
    congr 1
    funext idx
    exact Work.slavesRound_keeps_masters second idx
  have all : ∑ server ∈ ServerList.finset work.builder.availableServer,
      masters mastered.table server = shape.bucketCount := by
    have inside : ∀ idx, mastered.table.get shape.master idx ∈
        ServerList.finset work.builder.availableServer := by
      intro idx
      rw [ServerList.mem_finset]
      exact counted.available_iff.mp ((placing.masters_round first).2 idx)
    change ∑ server ∈ _, tally _ server = _
    rw [Tally.sum_tally, Finset.filter_true_of_mem (fun idx _ => inside idx), Finset.card_univ,
      Fintype.card_fin]
  have below : ∀ server ∈ ServerList.finset work.builder.availableServer,
      (masters mastered.table server : Int) ≤ work.builder.mtokens.capable server :=
    fun server inside => masters_le_capable caps counted nonneg first (ServerList.mem_finset.mp inside)
  have sums : ∑ server ∈ ServerList.finset work.builder.availableServer,
      (masters mastered.table server : Int) =
        ∑ server ∈ ServerList.finset work.builder.availableServer,
          work.builder.mtokens.capable server := by
    rw [total, ← all]
    push_cast
    rfl
  rw [kept]
  exact (Finset.sum_eq_sum_iff_of_le below).mp sums node (ServerList.mem_finset.mpr member)

/-! ### The first strategy -/

namespace TableBuilder1

theorem capsMasters (shape : Shape) : (strategy shape).CapsMasters where
  below good := (TableBuilder.tokenStatus_master _ _ _ _ _ _).mp
    (TableBuilder.nodeStatus_nodeOK.mp good).2.1

/-- The loop gives out exactly the larger quotas it has. It never has more small
ones given than there are, nor more large ones, and at the end all are given. -/
theorem extras_takesMore (counts : TokenCount) (minCount limit : Int)
    (servers : List ServerIdType) (i maxS : Int) (fewLarge : maxS ≤ limit)
    (fewSmall : i - maxS ≤ minCount) (total : i + servers.length = minCount + limit) :
    extras (takesMore counts minCount limit) servers i maxS = limit - maxS := by
  induction servers generalizing i maxS with
  | nil =>
    rw [List.length_nil] at total
    unfold extras
    omega
  | cons head rest ih =>
    rw [List.length_cons] at total
    push_cast at total
    unfold extras
    by_cases low : counts.getD head 0 ≤ preNodeCountMin counts
    · by_cases left : i - maxS < minCount
      · have takes : ¬takesMore counts minCount limit head i maxS = true := by
          simp [takesMore, low, left]
        rw [if_neg takes]
        exact ih (i + 1) maxS fewLarge (by omega) (by omega)
      · have takes : takesMore counts minCount limit head i maxS = true := by
          simp [takesMore, low, left]
        rw [if_pos takes, ih (i + 1) (maxS + 1) (by omega) (by omega) (by omega)]
        omega
    · by_cases left : maxS < limit
      · have takes : takesMore counts minCount limit head i maxS = true := by
          simp [takesMore, low, left]
        rw [if_pos takes, ih (i + 1) (maxS + 1) (by omega) (by omega) (by omega)]
        omega
      · have takes : ¬takesMore counts minCount limit head i maxS = true := by
          simp [takesMore, low, left]
        rw [if_neg takes]
        exact ih (i + 1) maxS fewLarge (by omega) (by omega)

variable (builder : TableBuilder Limits) (source : HashTable shape)

def masterShare (shape : Shape) (builder : TableBuilder Limits) : Nat :=
  shape.bucketCount / builder.availableServer.size

theorem masterCapable_cases {node : ServerIdType} (member : node ∈ builder.availableServer) :
    (builder.prepare (strategy shape) source).mtokens.capable node = masterShare shape builder ∨
      (builder.prepare (strategy shape) source).mtokens.capable node =
        masterShare shape builder + 1 :=
  assignCapable_cases _ _ _ (TreeSet.mem_toList.mpr member) _ _ _ (ServerList.nodup_toList _)

theorem countP_masterCapable (some : 0 < builder.availableServer.size) :
    builder.availableServer.toList.countP (fun node =>
        decide ((builder.prepare (strategy shape) source).mtokens.capable node =
          masterShare shape builder + 1)) =
      shape.bucketCount % builder.availableServer.size := by
  set shared := Int.tdiv shape.bucketCount builder.availableServer.size *
    builder.availableServer.size with isShared
  have remainder : shape.bucketCount - shared =
      (shape.bucketCount % builder.availableServer.size : Nat) := by
    rw [isShared, Int.tdiv_eq_ediv_of_nonneg (Int.natCast_nonneg _), Int.natCast_mod, Int.emod_def,
      Int.mul_comm]
  have bound := Nat.mod_lt shape.bucketCount some
  have given := extras_takesMore (builder.prepare (strategy shape) source).mtokens.countInNode
    (builder.availableServer.size - (shape.bucketCount - shared)) (shape.bucketCount - shared)
    builder.availableServer.toList 0 0 (by omega) (by omega) (by rw [TreeSet.length_toList]; omega)
  have counted := countP_assignCapable _ (Int.tdiv shape.bucketCount builder.availableServer.size)
    builder.availableServer.toList 0 0 ∅ (ServerList.nodup_toList _) |>.trans given
  rw [Int.sub_zero] at counted
  exact Int.ofNat.inj (counted.trans remainder)

theorem sum_masterCapable (some : 0 < builder.availableServer.size) :
    ∑ node ∈ ServerList.finset builder.availableServer,
      (builder.prepare (strategy shape) source).mtokens.capable node = shape.bucketCount := by
  unfold ServerList.finset
  rw [List.sum_toFinset _ (ServerList.nodup_toList _), sum_two_sizes (masterShare shape builder) _ _
      (fun node member => masterCapable_cases builder source (TreeSet.mem_toList.mp member)),
    countP_masterCapable builder source some, TreeSet.length_toList]
  have split := Nat.div_add_mod' shape.bucketCount builder.availableServer.size
  exact_mod_cast split

/-- Whatever the source was, every server masters its quota, which is the same
for all up to one bucket. -/
theorem rebuildTable_balanced (up : UpNodes)
    (built : ((builder.setAvailableServer up.serverIds).rebuildTable (strategy shape) source
      true).code = .buildOK) :
    let rebuilt := (builder.setAvailableServer up.serverIds).rebuildTable (strategy shape) source true
    let servers := (builder.setAvailableServer up.serverIds).availableServer
    let share := shape.bucketCount / servers.size
    (∀ node ∈ servers,
      (masters rebuilt.work.table node : Int) = rebuilt.work.builder.mtokens.capable node ∧
        (masters rebuilt.work.table node = share ∨ masters rebuilt.work.table node = share + 1)) ∧
      servers.toList.countP (fun node => masters rebuilt.work.table node = share + 1) =
        shape.bucketCount % servers.size := by
  intro rebuilt servers share
  set ready := builder.setAvailableServer up.serverIds
  obtain ⟨enough, finished⟩ := TableBuilder.rebuildTable_buildOK built
  have some : 0 < servers.size := Nat.lt_of_lt_of_le shape.copyPositive enough
  have counted := counted_prepare (strategy shape) ready
    (fun node member => builder.real_setAvailableServer up member) source
  have sizes := fun node (member : node ∈ servers) =>
    masterCapable_cases ready source member
  have used : ∀ node ∈ servers, (masters rebuilt.work.table node : Int) =
      (ready.prepare (strategy shape) source).mtokens.capable node := by
    intro node member
    refine masters_eq_capable (capsMasters shape) (placing shape) counted ?_
      (sum_masterCapable _ source some) finished member
    intro other inside
    change 0 ≤ (ready.prepare (strategy shape) source).mtokens.capable other
    rcases sizes other inside with small | large
    · omega
    · omega
  have setup := ((placing shape).checkTable_settled finished).1
  have quota : ∀ node, rebuilt.work.builder.mtokens.capable node =
      (ready.prepare (strategy shape) source).mtokens.capable node :=
    fun node => congrArg (fun setup : Setup Limits => setup.masterServerCapable.getD node 0) setup
  refine ⟨fun node member => ⟨(used node member).trans (quota node).symm, ?_⟩, ?_⟩
  · have same := used node member
    rcases sizes node member with small | large
    · rw [small] at same
      exact Or.inl (Int.ofNat.inj same)
    · rw [large] at same
      exact Or.inr (Int.ofNat.inj same)
  · rw [← countP_masterCapable ready source some]
    refine List.countP_congr (fun node member => ?_)
    have same := used node (TreeSet.mem_toList.mp member)
    rw [decide_eq_true_eq, decide_eq_true_eq, ← same]
    exact Int.natCast_inj.symm

theorem rebuildTable_balanced_sample :
    let builder := (TableBuilder.construct 0 unsetLimits).setAvailableServer sampleNodes.serverIds
    let rebuilt := builder.rebuildTable (strategy sampleShape) sampleSource true
    rebuilt.code = .buildOK ∧
      builder.availableServer.toList.countP (fun node => masters rebuilt.work.table node =
        2 / builder.availableServer.size + 1) = 2 % builder.availableServer.size :=
  ⟨by decide +kernel, (rebuildTable_balanced (TableBuilder.construct 0 unsetLimits) sampleSource
    sampleNodes (by decide +kernel)).2⟩

end TableBuilder1

end Tair.ConfigServer
