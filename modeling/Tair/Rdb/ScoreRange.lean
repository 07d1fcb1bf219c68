/-
Ranges of a sorted set by score, as a client asks for them. The engine's walks give the members
of an interval upwards or downwards; the server takes the walk for the other direction.
-/

import Tair.Library.Sorted
import Tair.Rdb.Slots

namespace Tair.Rdb

open Tair.Library

variable {σ : Type} [LinearOrder σ]

/-! ### The order of the skip list -/

def scoreLe (left right : ZslNode σ) : Prop := left.2 ≤ right.2

instance (left right : ZslNode σ) : Decidable (scoreLe left right) :=
  inferInstanceAs (Decidable (left.2 ≤ right.2))

/-! ### The walks -/

def between (low high : σ) (nodes : List (ZslNode σ)) : List (ZslNode σ) :=
  nodes.filter fun node => low ≤ node.2 ∧ node.2 ≤ high

theorem scoreRange_upwards {nodes : List (ZslNode σ)} (sorted : nodes.Pairwise scoreLe)
    (first last : σ) : scoreRange false first last nodes = between first last nodes := by
  have lost : nodes.dropWhile (fun node => decide (node.2 < first)) =
      nodes.filter (fun node => !decide (node.2 < first)) := by
    refine Sorted.dropWhile_eq_filter ?_ sorted
    intro left right ordered below
    exact decide_eq_true (lt_of_le_of_lt ordered (of_decide_eq_true below))
  have taken : (nodes.filter (fun node => !decide (node.2 < first))).takeWhile
        (fun node => decide (node.2 ≤ last)) =
      (nodes.filter (fun node => !decide (node.2 < first))).filter
        (fun node => decide (node.2 ≤ last)) := by
    refine Sorted.takeWhile_eq_filter ?_ (sorted.sublist List.filter_sublist)
    intro left right ordered below
    exact decide_eq_true (le_trans ordered (of_decide_eq_true below))
  change (nodes.dropWhile (fun node => decide (node.2 < first))).takeWhile
    (fun node => decide (node.2 ≤ last)) = _
  rw [lost, taken, List.filter_filter]
  refine List.filter_congr ?_
  intro node _
  simp only [← decide_not, not_lt, ← Bool.decide_and]
  exact decide_eq_decide.mpr and_comm

omit [LinearOrder σ] in
theorem tailUnless_cons (behind : List (ZslNode σ)) (node : ZslNode σ) (ahead : List (ZslNode σ)) :
    tailUnless (behind, node :: ahead) = (behind, node :: ahead) := by
  cases behind <;> rfl

/-- From a node on, forward over those that have the score of the bound. -/
theorem backwards_forwardOver (bound : σ) (behind : List (ZslNode σ)) (node : ZslNode σ)
    {equal above : List (ZslNode σ)} (same : ∀ next ∈ equal, next.2 = bound)
    (ne : ∀ next ∈ above, next.2 ≠ bound) :
    backwards (forwardOver bound behind (node :: (equal ++ above))) =
      equal.reverse ++ node :: behind := by
  induction equal generalizing behind node with
  | nil =>
    cases above with
    | nil => rfl
    | cons next above =>
      have stop := ne next List.mem_cons_self
      simp [forwardOver, stop, backwards]
  | cons next equal ih =>
    have go := same next List.mem_cons_self
    have later := ih (node :: behind) next fun other member =>
      same other (List.mem_cons_of_mem _ member)
    simp only [List.cons_append, forwardOver, go, if_true, later, List.reverse_cons,
      List.append_assoc, List.nil_append]

/-- The walk downwards begins at the last node whose score is not above the bound. -/
theorem scoreWalk_parts (bound : σ) {below equal above : List (ZslNode σ)}
    (low : ∀ node ∈ below, node.2 < bound) (same : ∀ node ∈ equal, node.2 = bound)
    (high : ∀ node ∈ above, bound < node.2) :
    scoreWalk true bound (below ++ (equal ++ above)) = (below ++ equal).reverse := by
  have taken : (below ++ (equal ++ above)).takeWhile (fun node => decide (node.2 < bound)) =
      below := by
    rw [List.takeWhile_append_of_pos (fun node member => decide_eq_true (low node member))]
    cases equal with
    | nil =>
      cases above with
      | nil => simp
      | cons node above =>
        have stop := lt_asymm (high node List.mem_cons_self)
        simp [stop]
    | cons node equal =>
      have stop : ¬ node.2 < bound := by
        rw [same node List.mem_cons_self]
        exact lt_irrefl bound
      simp [stop]
  have lost : (below ++ (equal ++ above)).dropWhile (fun node => decide (node.2 < bound)) =
      equal ++ above := by
    have split := List.takeWhile_append_dropWhile (p := fun node : ZslNode σ =>
      decide (node.2 < bound)) (l := below ++ (equal ++ above))
    rw [taken] at split
    exact List.append_cancel_left split
  have ne : ∀ node ∈ above, node.2 ≠ bound := fun node member =>
    ne_of_gt (high node member)
  simp only [scoreWalk, zslFirstWithScore, taken, lost, if_true]
  cases equal with
  | cons node equal =>
    -- The node that was found has the bound as its score.
    have stay : ¬ bound < node.2 := by
      rw [same node List.mem_cons_self]
      exact lt_irrefl bound
    have place : backOver bound below.reverse (node :: (equal ++ above)) =
        (below.reverse, node :: (equal ++ above)) := by
      cases below.reverse <;> simp [backOver, stay]
    simp only [List.cons_append, tailUnless_cons, place]
    rw [backwards_forwardOver bound _ node
      (fun other member => same other (List.mem_cons_of_mem _ member)) ne]
    simp
  | nil =>
    simp only [List.nil_append, List.append_nil]
    cases back : below.reverse with
    | nil =>
      cases above with
      | nil => rfl
      | cons node above =>
        simp [tailUnless_cons, backOver, high node List.mem_cons_self, forwardOver, backwards]
    | cons last behind =>
      -- One step back, from the end or from the first node above the bound.
      have stay : ¬ bound < last.2 := by
        have member : last ∈ below := by
          rw [← List.mem_reverse, back]
          exact List.mem_cons_self
        exact lt_asymm (low last member)
      have place : (let place := tailUnless (last :: behind, above)
          backOver bound place.1 place.2) = (behind, last :: above) := by
        cases above with
        | nil => cases behind <;> simp [tailUnless, backOver, stay]
        | cons node above =>
          cases behind <;>
            simp [tailUnless_cons, backOver, high node List.mem_cons_self, stay]
      simp only at place
      rw [place]
      exact @backwards_forwardOver σ _ bound behind last [] above (by simp) ne

section

variable {nodes : List (ZslNode σ)} (sorted : nodes.Pairwise scoreLe)

include sorted

theorem exists_parts (bound : σ) :
    ∃ below equal above, nodes = below ++ (equal ++ above) ∧
      (∀ node ∈ below, node.2 < bound) ∧ (∀ node ∈ equal, node.2 = bound) ∧
        ∀ node ∈ above, bound < node.2 := by
  let rest := nodes.dropWhile fun node => decide (node.2 < bound)
  have least : ∀ node ∈ rest, bound ≤ node.2 := by
    have cut : rest = nodes.filter fun node => !decide (node.2 < bound) := by
      refine Sorted.dropWhile_eq_filter ?_ sorted
      intro left right ordered below
      exact decide_eq_true (lt_of_le_of_lt ordered (of_decide_eq_true below))
    intro node member
    rw [cut] at member
    simpa using (List.mem_filter.mp member).2
  have ordered : rest.Pairwise scoreLe := sorted.sublist (List.dropWhile_sublist _)
  refine ⟨nodes.takeWhile fun node => decide (node.2 < bound),
    rest.takeWhile fun node => decide (node.2 ≤ bound),
    rest.dropWhile fun node => decide (node.2 ≤ bound), ?_, ?_, ?_, ?_⟩
  · rw [List.takeWhile_append_dropWhile, List.takeWhile_append_dropWhile]
  · intro node member
    have passed := List.mem_takeWhile_imp member
    exact of_decide_eq_true passed
  · intro node member
    have passed := List.mem_takeWhile_imp member
    exact le_antisymm (of_decide_eq_true passed)
      (least node ((List.takeWhile_sublist _).subset member))
  · have cut : rest.dropWhile (fun node => decide (node.2 ≤ bound)) =
        rest.filter fun node => !decide (node.2 ≤ bound) := by
      refine Sorted.dropWhile_eq_filter ?_ ordered
      intro left right ordered below
      exact decide_eq_true (le_trans ordered (of_decide_eq_true below))
    intro node member
    rw [cut] at member
    simpa using (List.mem_filter.mp member).2

theorem scoreWalk_downwards (bound : σ) :
    scoreWalk true bound nodes = (nodes.filter fun node => decide (node.2 ≤ bound)).reverse := by
  obtain ⟨below, equal, above, rfl, low, same, high⟩ := exists_parts sorted bound
  rw [scoreWalk_parts bound low same high, List.filter_append, List.filter_append,
    List.filter_eq_self.mpr fun node member => decide_eq_true (le_of_lt (low node member)),
    List.filter_eq_self.mpr fun node member => decide_eq_true (le_of_eq (same node member)),
    List.filter_eq_nil_iff.mpr fun node member passed =>
      not_lt_of_ge (of_decide_eq_true passed) (high node member), List.append_nil]

theorem scoreRange_downwards (first last : σ) :
    scoreRange true first last nodes = (between last first nodes).reverse := by
  have descending : (nodes.filter fun node => decide (node.2 ≤ first)).reverse.Pairwise
      fun left right => scoreLe right left :=
    List.pairwise_reverse.mpr (sorted.sublist List.filter_sublist)
  change (scoreWalk true first nodes).takeWhile (fun node => decide (last ≤ node.2)) = _
  rw [scoreWalk_downwards sorted, Sorted.takeWhile_eq_filter ?_ descending, List.filter_reverse,
    List.filter_filter]
  · refine congrArg List.reverse (List.filter_congr ?_)
    intro node _
    rw [← Bool.decide_and]
  · intro left right ordered above
    exact decide_eq_true (le_trans (of_decide_eq_true above) ordered)

end

/-! ### The session -/

/-- `request_generic_zrangebyscore`. -/
structure ScoreRequest (σ : Type) where
  start : σ
  finish : σ
  reverse : Bool
  limit : Int
  withScore : Bool

structure ScoreReply (σ : Type) where
  code : RedisCode
  values : List Bytes
  scores : List σ

/-- The items and the scores that the session makes of the nodes of an answer. A score at an odd
place is one of those that were asked for, any other one would be printed as an item. -/
def sessionItems (printed : σ → Bytes) (withScore : Bool) :
    Nat → List (ValueNode σ) → Except Fault (List Bytes × List σ)
  | _, [] => .ok ([], [])
  | now, .double score :: nodes => do
    let rest ← sessionItems printed withScore (now + 1) nodes
    if now % 2 = 1 ∧ withScore then pure (rest.1, score :: rest.2)
    else pure (printed score :: rest.1, rest.2)
  | now, .null :: nodes => sessionItems printed withScore (now + 1) nodes
  | now, node :: nodes => do
    let bytes ← node.read
    let rest ← sessionItems printed withScore (now + 1) nodes
    pure (bytes :: rest.1, rest.2)

def genericZrangebyscore (ops : ScoreOps σ) (printed : σ → Bytes) (request : ScoreRequest σ)
    (reverse : Bool) (now : Int) (key : Bytes) (db : RedisDb σ) :
    Except Fault (RedisDb σ × ScoreReply σ) := do
  let ran ← db.run now key (zrangebyscoreCommand ops reverse request.start request.finish
    request.limit request.withScore)
  match ran.2.code, ran.2.answer with
  | .ok, .values nodes => do
    let items ← sessionItems printed request.withScore 0 nodes
    pure (ran.1, { code := .ok, values := items.1, scores := items.2 })
  | code, _ => pure (ran.1, { code := code, values := [], scores := [] })

/-- `request_processor::process`: a request for the reverse order goes to `zrangebyscore`, the
other ones to `zrevrangebyscore`. -/
def processGenericZrangebyscore (ops : ScoreOps σ) (printed : σ → Bytes)
    (request : ScoreRequest σ) (now : Int) (key : Bytes) (db : RedisDb σ) :
    Except Fault (RedisDb σ × ScoreReply σ) :=
  if request.reverse then genericZrangebyscore ops printed request false now key db
  else genericZrangebyscore ops printed request true now key db

def ScoreReply.of (withScore : Bool) (members : List (ZslNode σ)) : ScoreReply σ :=
  { code := if members.isEmpty then .okRangeHaveNone else .ok
    values := members.map memberOf
    scores := if withScore then members.map Prod.snd else [] }

omit [LinearOrder σ] in
/-- The session reads the members and their scores back, from an even place on when there are
scores between them. -/
theorem sessionItems_memberNodes (printed : σ → Bytes) (withScore : Bool)
    (members : List (ZslNode σ)) (now : Nat) (even : withScore = true → now % 2 = 0) :
    sessionItems printed withScore now (memberNodes withScore members) =
      .ok (members.map memberOf, if withScore then members.map Prod.snd else []) := by
  induction members generalizing now with
  | nil => cases withScore <;> rfl
  | cons node members ih =>
    have item : ∀ nodes, sessionItems printed withScore now (node.1.node :: nodes) = (do
        let rest ← sessionItems printed withScore (now + 1) nodes
        pure (node.1.decoded :: rest.1, rest.2)) := by
      intro nodes
      obtain ⟨object, score⟩ := node
      cases object <;> rfl
    cases withScore with
    | false =>
      change sessionItems printed false now (node.1.node :: memberNodes false members) = _
      rw [item, ih (now + 1) (by simp)]
      rfl
    | true =>
      have odd : (now + 1) % 2 = 1 := by
        have := even rfl
        omega
      change sessionItems printed true now
        (node.1.node :: .double node.2 :: memberNodes true members) = _
      rw [item, sessionItems, ih (now + 1 + 1) (fun _ => by omega)]
      change (if (now + 1) % 2 = 1 ∧ true = true then _ else _) >>= _ = _
      rw [if_pos ⟨odd, rfl⟩]
      rfl

section Reply

variable {db : RedisDb σ} {now : Int} {key : Bytes} {slot : Slot σ} {nodes : List (ZslNode σ)}

theorem genericZrangebyscore_eq (ops : ScoreOps σ) (printed : σ → Bytes)
    (request : ScoreRequest σ) (reverse : Bool) (tidy : db.Tidy) (clocked : db.Clocked key)
    (found : db.live now key = some slot) (isZset : slot.entry.value = .zset nodes) :
    ∃ after, genericZrangebyscore ops printed request reverse now key db =
      .ok (after, .of request.withScore (takeLimit request.limit (scoreRange reverse
        (ops.carried request.start) (ops.carried request.finish) nodes))) := by
  generalize walked : takeLimit request.limit (scoreRange reverse
    (ops.carried request.start) (ops.carried request.finish) nodes) = members
  have entry : (db.live now key).map Slot.entry = some slot.entry := by
    rw [found]
    rfl
  have acted : zrangebyscoreCommand ops reverse request.start request.finish request.limit
      request.withScore ((db.live now key).map Slot.entry) =
      if members.isEmpty then .ok (.refuse .okRangeHaveNone slot.entry.version)
      else .ok (.read (.values (memberNodes request.withScore members)) slot.entry.version) := by
    rw [entry]
    obtain ⟨⟨value, version, logiclock⟩, expire⟩ := slot
    cases isZset
    rw [← walked]
    rfl
  cases members with
  | nil =>
    obtain ⟨after, ran⟩ := RedisDb.run_of_action tidy clocked acted
    refine ⟨after, ?_⟩
    unfold genericZrangebyscore
    rw [ran]
    cases request.withScore <;> rfl
  | cons node members =>
    obtain ⟨after, ran⟩ := RedisDb.run_of_action tidy clocked acted
    refine ⟨after, ?_⟩
    unfold genericZrangebyscore
    rw [ran]
    change sessionItems printed request.withScore 0
      (memberNodes request.withScore (node :: members)) >>= _ = _
    rw [sessionItems_memberNodes printed request.withScore _ 0 (fun _ => rfl)]
    rfl

/-! ### What the client asked for -/

variable (request : ScoreRequest σ)

def ScoreRequest.asked (nodes : List (ZslNode σ)) : List (ZslNode σ) :=
  if request.reverse then between request.finish request.start nodes
  else between request.start request.finish nodes

def ScoreRequest.members (nodes : List (ZslNode σ)) : List (ZslNode σ) :=
  takeLimit request.limit
    (if request.reverse then (request.asked nodes).reverse else request.asked nodes)

/-- The interval with the bounds of the request in the other order, as they arrive. -/
def ScoreRequest.opposite (ops : ScoreOps σ) (nodes : List (ZslNode σ)) : List (ZslNode σ) :=
  if request.reverse then between (ops.carried request.start) (ops.carried request.finish) nodes
  else between (ops.carried request.finish) (ops.carried request.start) nodes

/-- Upwards through one interval and downwards through the other one the same members come
first: none, or a single one. -/
def SameFirst (limit : Int) (upwards downwards : List (ZslNode σ)) : Prop :=
  limit = 0 ∨ (upwards = [] ∧ downwards = []) ∨
    ∃ node, upwards.head? = some node ∧ downwards.getLast? = some node ∧
      (limit = 1 ∨ (upwards.length = 1 ∧ downwards.length = 1))

omit [LinearOrder σ] in
theorem takeLimit_eq_nil_iff {limit : Int} {members : List (ZslNode σ)} :
    takeLimit limit members = [] ↔ limit = 0 ∨ members = [] := by
  unfold takeLimit
  split
  · constructor
    · exact Or.inr
    · rintro (zero | empty)
      · omega
      · exact empty
  · rw [List.take_eq_nil_iff]
    constructor
    · exact Or.imp_left fun zero => by omega
    · exact Or.imp_left fun zero => by omega

omit [LinearOrder σ] in
theorem takeLimit_eq_singleton_iff {limit : Int} (real : limit ≠ 0)
    {members : List (ZslNode σ)} {node : ZslNode σ} :
    takeLimit limit members = [node] ↔
      members.head? = some node ∧ (limit = 1 ∨ members.length = 1) := by
  cases members with
  | nil =>
    rw [takeLimit_eq_nil_iff.mpr (Or.inr rfl)]
    simp
  | cons first rest =>
    by_cases negative : limit < 0
    · have more : limit ≠ 1 := by omega
      simp [takeLimit, negative, more]
    · obtain ⟨count, counted⟩ : ∃ count, limit.toNat = count + 1 :=
        ⟨limit.toNat - 1, by omega⟩
      have one : limit = 1 ↔ count = 0 := by omega
      simp [takeLimit, negative, counted, one]

omit [LinearOrder σ] in
theorem takeLimit_eq_iff {limit : Int} {upwards downwards : List (ZslNode σ)}
    (apart : nodes.Nodup) (first : upwards.Sublist nodes) (second : downwards.Sublist nodes) :
    takeLimit limit upwards = takeLimit limit downwards.reverse ↔
      SameFirst limit upwards downwards := by
  by_cases zero : limit = 0
  · rw [takeLimit_eq_nil_iff.mpr (Or.inl zero), takeLimit_eq_nil_iff.mpr (Or.inl zero)]
    exact iff_of_true rfl (Or.inl zero)
  · have within : ∀ members : List (ZslNode σ), (takeLimit limit members).Sublist members := by
      intro members
      unfold takeLimit
      split
      · exact List.Sublist.refl members
      · exact List.take_sublist _ _
    constructor
    · intro same
      have short := Sorted.length_le_one_of_sublists apart ((within upwards).trans first)
        (by
          rw [same]
          exact (within _).trans second.reverse)
      refine Or.inr ?_
      cases taken : takeLimit limit upwards with
      | nil =>
        rw [taken] at same
        have none := takeLimit_eq_nil_iff.mp taken
        have alsoNone := takeLimit_eq_nil_iff.mp same.symm
        exact Or.inl ⟨none.resolve_left zero,
          List.reverse_eq_nil_iff.mp (alsoNone.resolve_left zero)⟩
      | cons node rest =>
        rw [taken] at short same
        have single : rest = [] := List.eq_nil_of_length_eq_zero (by simpa using short)
        rw [single] at taken same
        obtain ⟨head, one⟩ := (takeLimit_eq_singleton_iff zero).mp taken
        obtain ⟨last, alsoOne⟩ := (takeLimit_eq_singleton_iff zero).mp same.symm
        rw [List.head?_reverse] at last
        rw [List.length_reverse] at alsoOne
        refine Or.inr ⟨node, head, last, ?_⟩
        rcases one with one | one
        · exact Or.inl one
        · exact alsoOne.imp_right fun alsoOne => ⟨one, alsoOne⟩
    · rintro (nothing | ⟨noneUp, noneDown⟩ | ⟨node, head, last, one⟩)
      · exact absurd nothing zero
      · rw [noneUp, noneDown]
        rfl
      · rw [(takeLimit_eq_singleton_iff zero).mpr ⟨head, one.imp_right And.left⟩]
        refine ((takeLimit_eq_singleton_iff zero).mpr ⟨?_, ?_⟩).symm
        · rw [List.head?_reverse]
          exact last
        · rw [List.length_reverse]
          exact one.imp_right And.right

omit [LinearOrder σ] in
theorem takeLimit_subset (limit : Int) {members : List (ZslNode σ)} (inSet : members ⊆ nodes) :
    takeLimit limit members ⊆ nodes := by
  unfold takeLimit
  split
  · exact inSet
  · exact fun _ member => inSet (List.take_subset _ _ member)

omit [LinearOrder σ] in
theorem ScoreReply.of_inj (apart : (nodes.map memberOf).Nodup) {withScore : Bool}
    {first second : List (ZslNode σ)} (inFirst : first ⊆ nodes) (inSecond : second ⊆ nodes) :
    ScoreReply.of withScore first = .of withScore second ↔ first = second := by
  constructor
  · intro same
    exact Sorted.eq_of_keys_eq apart inFirst inSecond (congrArg ScoreReply.values same)
  · exact congrArg _

def ScoreRequest.Directionless (ops : ScoreOps σ) (nodes : List (ZslNode σ)) : Prop :=
  if request.reverse then
    SameFirst request.limit (request.opposite ops nodes) (request.asked nodes)
  else SameFirst request.limit (request.asked nodes) (request.opposite ops nodes)

/-- The server walks in the direction that was not asked for, so the reply is the right one
exactly for the requests for which the direction makes no difference. -/
theorem score_range_ordered_iff (ops : ScoreOps σ) (printed : σ → Bytes)
    (request : ScoreRequest σ) (tidy : db.Tidy) (clocked : db.Clocked key)
    (found : db.live now key = some slot) (isZset : slot.entry.value = .zset nodes)
    (sorted : nodes.Pairwise scoreLe) (distinct : (nodes.map memberOf).Nodup) :
    (∃ after, processGenericZrangebyscore ops printed request now key db =
      .ok (after, .of request.withScore (request.members nodes))) ↔
        request.Directionless ops nodes := by
  have apart : nodes.Nodup := List.Nodup.of_map memberOf distinct
  have askedIn : (request.asked nodes).Sublist nodes := by
    unfold ScoreRequest.asked between
    split <;> exact List.filter_sublist
  have oppositeIn : (request.opposite ops nodes).Sublist nodes := by
    unfold ScoreRequest.opposite between
    split <;> exact List.filter_sublist
  -- Both replies are made of members of the set, so they are compared as lists of members.
  have compared : ∀ (reverse : Bool) (walked : List (ZslNode σ)), walked ⊆ nodes →
      takeLimit request.limit (scoreRange reverse (ops.carried request.start)
        (ops.carried request.finish) nodes) = takeLimit request.limit walked →
      ((∃ after, genericZrangebyscore ops printed request reverse now key db =
        .ok (after, .of request.withScore (request.members nodes))) ↔
          takeLimit request.limit walked = request.members nodes) := by
    intro reverse walked inSet same
    obtain ⟨after, replied⟩ :=
      genericZrangebyscore_eq ops printed request reverse tidy clocked found isZset
    have membersIn : request.members nodes ⊆ nodes := by
      refine takeLimit_subset _ ?_
      split
      · exact (List.reverse_subset.mpr askedIn.subset)
      · exact askedIn.subset
    rw [replied, same, ← ScoreReply.of_inj distinct (takeLimit_subset _ inSet) membersIn]
    constructor
    · rintro ⟨other, equal⟩
      exact congrArg Prod.snd (Except.ok.inj equal)
    · intro equal
      exact ⟨after, by rw [equal]⟩
  unfold processGenericZrangebyscore
  cases reverse : request.reverse with
  | false =>
    have walk : scoreRange true (ops.carried request.start) (ops.carried request.finish) nodes =
        (request.opposite ops nodes).reverse := by
      rw [scoreRange_downwards sorted]
      simp [ScoreRequest.opposite, reverse]
    simp only [Bool.false_eq_true, if_false]
    rw [compared true _ (List.reverse_subset.mpr oppositeIn.subset) (by rw [walk])]
    simp only [ScoreRequest.members, ScoreRequest.Directionless, reverse, Bool.false_eq_true,
      if_false]
    rw [← takeLimit_eq_iff apart askedIn oppositeIn]
    exact eq_comm
  | true =>
    have walk : scoreRange false (ops.carried request.start) (ops.carried request.finish)
        nodes = request.opposite ops nodes := by
      rw [scoreRange_upwards sorted]
      simp [ScoreRequest.opposite, reverse]
    simp only [if_true]
    rw [compared false _ oppositeIn.subset (by rw [walk])]
    simp only [ScoreRequest.members, ScoreRequest.Directionless, reverse, if_true]
    exact takeLimit_eq_iff apart oppositeIn askedIn

end Reply

def twoMembers : RedisDb Nat :=
  { dict := AList.singleton [107]
      { value := .zset [(.raw [97], 1), (.raw [98], 2)], version := 1, logiclock := 1 }
    expires := ∅
    logiclock := 1
    needRemoveKey := 0 }

def wholeScores : ScoreOps Nat := ⟨fun left right => some (left + right), id⟩

theorem score_range_ordered_single :
    ∃ after, processGenericZrangebyscore wholeScores (fun _ => [])
      ⟨1, 1, false, -1, true⟩ 5 [107] twoMembers =
        .ok (after, .of true [(.raw [97], 1)]) :=
  (@score_range_ordered_iff Nat _ twoMembers 5 [107] _ _ wholeScores (fun _ => [])
    ⟨1, 1, false, -1, true⟩ (fun _ _ => rfl) (by
      intro entry found
      cases found
      change (1 : UInt32) ≠ 0
      decide) rfl rfl (by decide) (by decide)).mpr
    (Or.inr (Or.inr ⟨(.raw [97], 1), rfl, rfl, Or.inr ⟨rfl, rfl⟩⟩))

/-- The two members from 1 to 2 in ascending order, and from 2 to 1 in descending order: both
times the answer is that there are none. -/
theorem score_range_inverted :
    (⟨1, 2, false, -1, false⟩ : ScoreRequest Nat).members [(.raw [97], 1), (.raw [98], 2)] =
      [(.raw [97], 1), (.raw [98], 2)] ∧
    (∃ after, processGenericZrangebyscore wholeScores (fun _ => [])
      ⟨1, 2, false, -1, false⟩ 5 [107] twoMembers = .ok (after, ⟨.okRangeHaveNone, [], []⟩)) ∧
    (⟨2, 1, true, -1, false⟩ : ScoreRequest Nat).members [(.raw [97], 1), (.raw [98], 2)] =
      [(.raw [98], 2), (.raw [97], 1)] ∧
    (∃ after, processGenericZrangebyscore wholeScores (fun _ => [])
      ⟨2, 1, true, -1, false⟩ 5 [107] twoMembers = .ok (after, ⟨.okRangeHaveNone, [], []⟩)) :=
  ⟨by decide, ⟨_, rfl⟩, by decide, ⟨_, rfl⟩⟩

end Tair.Rdb
