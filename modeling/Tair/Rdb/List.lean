/-
Pushes to lists. A push may bring a bound on the length of the list; the oldest elements make room
for the new ones then. Values that do not fit under the engine's own bound are not pushed.
-/

import Tair.Rdb.Db

namespace Tair.Rdb

open Tair.Library

/-! ### The two encodings -/

def ziplistDeleteRange (items : List Bytes) (index num : Nat) : List Bytes :=
  items.take index ++ items.drop (index + num)

/-- Nodes deleted from the end at which the list does not grow. There has to be a node. -/
def deleteNodes {α : Type} (growing : End) : Nat → List α → Except Fault (List α)
  | 0, items => .ok items
  | _ + 1, [] => .error .nullPointer
  | count + 1, first :: rest => deleteNodes growing count (growing.dropOldest 1 (first :: rest))

namespace RedisList

def length : RedisList → Nat
  | .ziplist items => items.length
  | .linkedlist items => items.length

def convert : RedisList → RedisList
  | .ziplist items =>
    .linkedlist (items.map (fun item => (StringObject.raw item).tryObjectEncoding))
  | .linkedlist items => .linkedlist items

def tryConversion (limits : Limits) (subject : RedisList) : StringObject → RedisList
  | .raw bytes => if limits.listMaxZiplistValue < bytes.length then subject.convert else subject
  | .int _ => subject

def convertIfLong (limits : Limits) (subject : RedisList) : RedisList :=
  if limits.listMaxZiplistEntries ≤ subject.length then subject.convert else subject

def addNode (growing : End) (value : StringObject) : RedisList → RedisList
  | .ziplist items => .ziplist (growing.push items value.decoded)
  | .linkedlist items => .linkedlist (growing.push items value)

/-- `listTypePush`. -/
def push (limits : Limits) (growing : End) (subject : RedisList) (value : StringObject) :
    RedisList :=
  ((subject.tryConversion limits value).convertIfLong limits).addNode growing value

def trim (growing : End) (shouldPop : Nat) : RedisList → Except Fault RedisList
  | .ziplist items =>
    let index := match growing with
      | .tail => 0
      | .head => items.length - shouldPop
    .ok (.ziplist (ziplistDeleteRange items index shouldPop))
  | .linkedlist items => RedisList.linkedlist <$> deleteNodes growing shouldPop items

end RedisList

/-! ### The command -/

structure PushPlan where
  shouldPop : Int
  argcOffset : Int
  argcLimit : Int
deriving DecidableEq, Repr

/-- How many old elements are popped, and the first argument that is pushed. The sum of two
lengths may be too long for an `int`, their differences are not. -/
def trimPlan (maxCount argc listLength : Int) : Except Fault (Int × Int) :=
  if 0 < maxCount then do
    let total ← toInt (listLength + (argc - 2))
    if maxCount < total then
      let dlt := total - maxCount
      let temp := dlt - listLength
      pure (if 0 < temp then listLength else dlt, 2 + if 0 < temp then temp else 0)
    else pure (0, 2)
  else pure (0, 2)

/-- The numbers of a push. The room is that beside the list as it was found. -/
def pushPlan (maxCount listMaxSize argc listLength : Int) : Except Fault PushPlan := do
  let (shouldPop, argcOffset) ← trimPlan maxCount argc listLength
  let wanted ← toInt (listLength + (argc - argcOffset))
  let cantPushInto := if 0 < wanted - listMaxSize then wanted - listMaxSize else 0
  pure { shouldPop, argcOffset, argcLimit := argc - cantPushInto }

/-- The values are pushed one after the other, the first one to a new list if there is none. -/
def pushValues (limits : Limits) (growing : End) :
    Option RedisList → List StringObject → Option RedisList
  | list, [] => list
  | some list, value :: rest =>
    pushValues limits growing (some (list.push limits growing value)) rest
  | none, value :: rest =>
    pushValues limits growing
      (some ((RedisList.ziplist []).push limits growing value.tryObjectEncoding)) rest

structure PushReturn where
  pushedNum : UInt32
  listLen : UInt32
deriving DecidableEq, Repr

/-- What a push does to the list, and the value of `i` after its loop. -/
def pushList (limits : Limits) (growing : End) (maxCount : Int) (values : List Bytes)
    (list : Option RedisList) : Except Fault (Option RedisList × Int) := do
  let argc ← toInt (values.length + 2)
  let listLength ← toInt (list.elim 0 RedisList.length : Nat)
  let plan ← pushPlan maxCount limits.listMaxSize argc listLength
  let trimmed ← list.mapM (RedisList.trim growing plan.shouldPop.toNat)
  let arguments := values.map StringObject.raw
  let pushed := (arguments.take (plan.argcLimit - 2).toNat).drop (plan.argcOffset - 2).toNat
  pure (pushValues limits growing trimmed pushed, max plan.argcOffset plan.argcLimit)

def listOf {σ : Type} : Option (Entry σ) → Option (Option RedisList)
  | none => some none
  | some { value := .list list, .. } => some (some list)
  | some _ => none

/-- The end of the command, with the list that is left and the value of `i`. -/
def storePushed {σ : Type} (client : Client) (key : Bytes) (version : UInt16) (argc : Nat)
    (db : RedisDb σ) : Option RedisList × Int →
      Except Fault (RedisDb σ × RedisCode × Option PushReturn)
  | (none, _) => .error .nullPointer
  | (some list, i) =>
    let db := (db.dbAdd key version (.list list)).mutate key (.list list)
    let db :=
      if i ≠ 2 then (db.dbUpdateKey key version).expireOrNot key client.expiretime else db
    let code := if i < argc then .errDataLenLimited else .ok
    .ok (db, code, some
      { pushedNum := UInt32.ofNat (i - 2).toNat
        listLen := UInt32.ofNat list.length })

/-- The command once the key has been looked up: its list, unless it has another type, and
the version to come, unless the request asked for another one. -/
def pushFound {σ : Type} (limits : Limits) (growing : End) (client : Client) (maxCount : Int)
    (key : Bytes) (values : List Bytes) (db : RedisDb σ) :
    Option (Option RedisList) → Option UInt16 →
      Except Fault (RedisDb σ × RedisCode × Option PushReturn)
  | none, _ => .ok (db, .errWrongTypeError, none)
  | some _, none => .ok (db, .errVersionError, none)
  | some list, some version =>
    pushList limits growing maxCount values list >>=
      storePushed client key version (values.length + 2) db

/-- `lpushCommand` and `rpushCommand`. -/
def pushnGenericCommand {σ : Type} (limits : Limits) (growing : End) (client : Client)
    (maxCount : Int) (key : Bytes) (values : List Bytes) (now : Int) (db : RedisDb σ) :
    Except Fault (RedisDb σ × RedisCode × Option PushReturn) := do
  let (db, found) ← db.lookupKeyWriteWithVersion now key
  pushFound limits growing client maxCount key values db (listOf found)
    (client.nextVersion (found.map Entry.version))

/-! ### The steps -/

theorem dropOldest_succ {α : Type} (grow : End) (count : Nat) (items : List α) :
    grow.dropOldest count (grow.dropOldest 1 items) =
      grow.dropOldest (count + 1) items := by
  apply grow.aged_injective
  rw [End.aged_dropOldest, End.aged_dropOldest, End.aged_dropOldest, List.drop_drop, Nat.add_comm]

theorem deleteNodes_eq {α : Type} (grow : End) {count : Nat} {items : List α}
    (enough : count ≤ items.length) :
    deleteNodes grow count items = .ok (grow.dropOldest count items) := by
  induction count generalizing items with
  | zero =>
    cases grow with
    | head => exact congrArg Except.ok List.take_length.symm
    | tail => rfl
  | succ count ih =>
    cases items with
    | nil => cases enough
    | cons first rest =>
      have left : count ≤ (grow.dropOldest 1 (first :: rest)).length := by
        rw [← grow.length_aged, End.aged_dropOldest, List.length_drop, End.length_aged]
        exact Nat.le_sub_one_of_lt enough
      change deleteNodes grow count (grow.dropOldest 1 (first :: rest)) = _
      rw [ih left, dropOldest_succ]

namespace RedisList

@[simp]
theorem length_items (list : RedisList) : list.items.length = list.length := by
  cases list with
  | ziplist items => rfl
  | linkedlist items => exact List.length_map _

@[simp]
theorem items_convert (list : RedisList) : list.convert.items = list.items := by
  cases list with
  | linkedlist items => rfl
  | ziplist items =>
    change (items.map _).map StringObject.decoded = items
    rw [List.map_map]
    exact (List.map_congr_left fun item _ =>
      StringObject.decoded_tryObjectEncoding (.raw item)).trans (List.map_id _)

@[simp]
theorem items_tryConversion (limits : Limits) (list : RedisList) (value : StringObject) :
    (list.tryConversion limits value).items = list.items := by
  cases value with
  | int value => rfl
  | raw bytes =>
    change (if _ then list.convert else list).items = _
    split_ifs
    · exact items_convert list
    · rfl

@[simp]
theorem items_convertIfLong (limits : Limits) (list : RedisList) :
    (list.convertIfLong limits).items = list.items := by
  unfold convertIfLong
  split_ifs
  · exact items_convert list
  · rfl

@[simp]
theorem items_addNode (grow : End) (value : StringObject) (list : RedisList) :
    (list.addNode grow value).items = grow.push list.items value.decoded := by
  cases list with
  | ziplist items => rfl
  | linkedlist items => exact grow.map_push StringObject.decoded items value

@[simp]
theorem items_push (limits : Limits) (grow : End) (list : RedisList) (value : StringObject) :
    (list.push limits grow value).items = grow.push list.items value.decoded := by
  unfold push
  rw [items_addNode, items_convertIfLong, items_tryConversion]

theorem trim_eq (grow : End) {shouldPop : Nat} {list : RedisList}
    (enough : shouldPop ≤ list.length) :
    ∃ cut, list.trim grow shouldPop = .ok cut ∧
      cut.items = grow.dropOldest shouldPop list.items := by
  cases list with
  | linkedlist items =>
    refine ⟨.linkedlist (grow.dropOldest shouldPop items), ?_, grow.map_dropOldest ..⟩
    change RedisList.linkedlist <$> deleteNodes grow shouldPop items = _
    rw [deleteNodes_eq grow enough]
    rfl
  | ziplist items =>
    refine ⟨_, rfl, ?_⟩
    cases grow with
    | tail =>
      change items.take 0 ++ items.drop (0 + shouldPop) = items.drop shouldPop
      rw [List.take_zero, List.nil_append, Nat.zero_add]
    | head =>
      have whole : items.length - shouldPop + shouldPop = items.length :=
        Nat.sub_add_cancel enough
      change items.take (items.length - shouldPop) ++
        items.drop (items.length - shouldPop + shouldPop) = items.take _
      rw [whole, List.drop_length, List.append_nil]
      rfl

def contents (list : Option RedisList) : List Bytes := list.elim [] items

theorem length_contents (list : Option RedisList) :
    (contents list).length = list.elim 0 RedisList.length := by
  cases list with
  | none => rfl
  | some list => exact length_items list

end RedisList

open RedisList (contents)

theorem contents_pushValues (limits : Limits) (grow : End) (list : Option RedisList)
    (values : List StringObject) :
    contents (pushValues limits grow list values) =
      grow.pushAll (contents list) (values.map StringObject.decoded) := by
  induction values generalizing list with
  | nil => cases list <;> rfl
  | cons value rest ih =>
    cases list with
    | none =>
      refine (ih _).trans ?_
      change grow.pushAll (RedisList.push limits grow _ _).items _ = _
      rw [RedisList.items_push, StringObject.decoded_tryObjectEncoding]
      rfl
    | some list =>
      refine (ih _).trans ?_
      change grow.pushAll (RedisList.push limits grow _ _).items _ = _
      rw [RedisList.items_push]
      rfl

theorem isSome_pushValues (limits : Limits) (grow : End) {list : Option RedisList}
    {values : List StringObject} (kept : list.isSome ∨ values ≠ []) :
    (pushValues limits grow list values).isSome := by
  induction values generalizing list with
  | nil =>
    cases list with
    | none => exact absurd rfl (kept.resolve_left Bool.false_ne_true)
    | some list => rfl
  | cons value rest ih =>
    cases list with
    | none => exact ih (.inl rfl)
    | some list => exact ih (.inl rfl)

/-! ### The numbers -/

def keepCount (maxCount : Int) (total : Nat) : Nat :=
  if 0 < maxCount then min maxCount.toNat total else total

def poppedCount (maxCount : Int) (length pushed : Nat) : Nat :=
  min length (length + pushed - keepCount maxCount (length + pushed))

def skippedCount (maxCount : Int) (length pushed : Nat) : Nat :=
  pushed - keepCount maxCount (length + pushed)

def takenCount (maxCount listMaxSize : Int) (length pushed : Nat) : Nat :=
  pushed - skippedCount maxCount length pushed -
    (length + (pushed - skippedCount maxCount length pushed) - listMaxSize.toNat)

section Plan

variable {maxCount listMaxSize : Int} {length pushed : Nat}

theorem trimPlan_eq (total : length + pushed < 2 ^ 31) :
    trimPlan maxCount (pushed + 2) length =
      .ok (poppedCount maxCount length pushed, 2 + skippedCount maxCount length pushed) := by
  have fits : toInt ((length : Int) + ((pushed : Int) + 2 - 2)) = .ok (length + pushed) := by
    rw [Int.add_sub_cancel]
    exact toInt_of_fits (by omega) (by omega)
  unfold trimPlan poppedCount skippedCount keepCount
  by_cases bounded : 0 < maxCount
  · rw [if_pos bounded, if_pos bounded, fits]
    change (if maxCount < (length : Int) + pushed then _ else _) = _
    by_cases cut : maxCount < (length : Int) + pushed
    · rw [if_pos cut]
      refine congrArg Except.ok (Prod.ext ?_ ?_)
      · dsimp only
        split_ifs <;> omega
      · dsimp only
        split_ifs <;> omega
    · rw [if_neg cut]
      refine congrArg Except.ok (Prod.ext ?_ ?_)
      · dsimp only
        omega
      · dsimp only
        omega
  · rw [if_neg bounded, if_neg bounded, Nat.sub_self, Nat.min_zero,
      Nat.sub_eq_zero_of_le (Nat.le_add_left ..)]
    rfl

theorem pushPlan_eq (total : length + pushed < 2 ^ 31) :
    ∃ plan, pushPlan maxCount listMaxSize (pushed + 2) length = .ok plan ∧
      plan.shouldPop = poppedCount maxCount length pushed ∧
      plan.argcOffset = 2 + skippedCount maxCount length pushed ∧
      max plan.argcOffset plan.argcLimit =
        2 + (skippedCount maxCount length pushed + takenCount maxCount listMaxSize length pushed :
          Nat) := by
  have most : skippedCount maxCount length pushed ≤ pushed := Nat.sub_le ..
  have fits : toInt ((length : Int) +
      ((pushed : Int) + 2 - (2 + skippedCount maxCount length pushed))) =
        .ok (length + (pushed - skippedCount maxCount length pushed) : Nat) := by
    have same : (length : Int) +
        ((pushed : Int) + 2 - (2 + skippedCount maxCount length pushed)) =
          (length + (pushed - skippedCount maxCount length pushed) : Nat) := by
      omega
    rw [same]
    exact toInt_of_fits (by omega) (by omega)
  unfold pushPlan
  rw [trimPlan_eq total]
  change ∃ plan, (toInt ((length : Int) +
    ((pushed : Int) + 2 - (2 + skippedCount maxCount length pushed))) >>= _) = _ ∧ _
  rw [fits]
  refine ⟨_, rfl, rfl, rfl, ?_⟩
  unfold takenCount
  dsimp only
  split_ifs <;> omega

theorem trimPlan_overflow (bounded : 0 < maxCount) (total : ¬ length + pushed < 2 ^ 31) :
    trimPlan maxCount (pushed + 2) length = .error .intOverflow := by
  unfold trimPlan
  rw [if_pos bounded, toInt_of_long (by omega)]
  rfl

theorem pushPlan_overflow (total : ¬ length + pushed < 2 ^ 31) :
    pushPlan maxCount listMaxSize (pushed + 2) length = .error .intOverflow := by
  unfold pushPlan
  by_cases bounded : 0 < maxCount
  · rw [trimPlan_overflow bounded total]
    rfl
  · have untrimmed : trimPlan maxCount (pushed + 2) length = .ok (0, 2) := if_neg bounded
    rw [untrimmed]
    change (toInt ((length : Int) + ((pushed : Int) + 2 - 2)) >>= _) = _
    rw [toInt_of_long (by omega)]
    rfl

end Plan

/-! ### What a push leaves -/

theorem mapM_trim_eq (grow : End) {shouldPop : Nat} {list : Option RedisList}
    (enough : shouldPop ≤ (contents list).length) :
    ∃ cut, list.mapM (RedisList.trim grow shouldPop) = .ok cut ∧
      cut.isSome = list.isSome ∧
      contents cut = grow.dropOldest shouldPop (contents list) := by
  cases list with
  | none =>
    refine ⟨none, rfl, rfl, ?_⟩
    cases grow with
    | head => exact List.take_nil.symm
    | tail => exact List.drop_nil.symm
  | some list =>
    obtain ⟨cut, ran, same⟩ :=
      RedisList.trim_eq grow (enough.trans_eq (RedisList.length_items list))
    refine ⟨some cut, ?_, rfl, same⟩
    change some <$> list.trim grow shouldPop = _
    rw [ran]
    rfl

structure PushList (growing : End) (list after : Option RedisList) (values : List Bytes)
    (popped skipped count : Nat) : Prop where
  aged : growing.aged (contents after) =
    (growing.aged (contents list)).drop popped ++ (values.drop skipped).take count
  isSome : list.isSome ∨ 0 < count → after.isSome

theorem pushList_eq {limits : Limits} (grow : End) (maxCount : Int) {values : List Bytes}
    {list : Option RedisList} (argc : values.length + 2 < 2 ^ 31)
    (total : (contents list).length + values.length < 2 ^ 31) :
    let length := (contents list).length
    let skipped := skippedCount maxCount length values.length
    let count := takenCount maxCount limits.listMaxSize length values.length
    ∃ after, pushList limits grow maxCount values list =
        .ok (after, 2 + (skipped + count : Nat)) ∧
      PushList grow list after values (poppedCount maxCount length values.length) skipped
        count := by
  intro length skipped count
  have lengthFits : toInt (list.elim 0 RedisList.length : Nat) = .ok (length : Int) := by
    rw [← RedisList.length_contents]
    exact toInt_of_fits (by omega) (by omega)
  have argcFits : toInt ((values.length : Int) + 2) = .ok (values.length + 2) :=
    toInt_of_fits (by omega) (by omega)
  have enough : poppedCount maxCount length values.length ≤ (contents list).length :=
    Nat.min_le_left ..
  obtain ⟨cut, popped, stillThere, left⟩ := mapM_trim_eq grow enough
  obtain ⟨plan, planned, shouldPop, argcOffset, argcLimit⟩ :
      ∃ plan, pushPlan maxCount limits.listMaxSize (values.length + 2) length = .ok plan ∧ _ :=
    pushPlan_eq total
  let arguments := ((values.map StringObject.raw).take (plan.argcLimit - 2).toNat).drop
    (plan.argcOffset - 2).toNat
  have decoded : arguments.map StringObject.decoded = (values.drop skipped).take count := by
    have offset : (plan.argcOffset - 2).toNat = skipped := by omega
    have limit : (plan.argcLimit - 2).toNat - skipped = count := by
      change max plan.argcOffset plan.argcLimit = 2 + (skipped + count : Nat) at argcLimit
      omega
    rw [List.map_drop, List.map_take, List.map_map, offset, List.drop_take, limit]
    exact congrArg _ (congrArg _ (List.map_id values))
  refine ⟨pushValues limits grow cut arguments, ?_, ?_, ?_⟩
  · unfold pushList
    rw [argcFits, lengthFits]
    change (pushPlan maxCount limits.listMaxSize (values.length + 2) length >>= _) = _
    rw [planned]
    change (list.mapM (RedisList.trim grow plan.shouldPop.toNat) >>= _) = _
    rw [shouldPop, Int.toNat_natCast, popped]
    exact congrArg Except.ok (Prod.ext rfl argcLimit)
  · rw [contents_pushValues, End.aged_pushAll, left, End.aged_dropOldest, decoded]
  · intro there
    refine isSome_pushValues limits grow (there.imp (stillThere.trans ·) ?_)
    intro some empty
    have most : count ≤ values.length - skipped := Nat.sub_le ..
    have none := congrArg List.length decoded
    rw [empty, List.map_nil, List.length_nil, List.length_take, List.length_drop] at none
    omega

end Tair.Rdb
