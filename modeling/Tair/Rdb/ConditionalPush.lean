/-
A push to a list that has to be there pushes its first value once for every value that it is
given, and knows no bound of the request. So it stores what a push would store exactly when the
values are all the same and there is room for them.
-/

import Tair.Rdb.BoundedPush
import Tair.Rdb.Slots

namespace Tair.Rdb

open Tair.Library RedisList

variable {σ : Type}

def RedisDb.stored (db : RedisDb σ) (key : Bytes) : Option (Visible σ) :=
  (db.slot key).map Slot.visible

def StoredAlike (db : RedisDb σ) (now : Int) (key : Bytes) (first second : Action σ) : Prop :=
  ∃ left right, db.run now key first = .ok left ∧ db.run now key second = .ok right ∧
    ∀ other, left.1.stored other = right.1.stored other

structure PushedAlike (maxCount : Int) (length : Nat) (values : List Bytes) : Prop where
  untrimmed : 0 < maxCount → (length + values.length : Int) ≤ maxCount
  same : ∀ value ∈ values, values.head? = some value

section Runs

variable {db : RedisDb σ} {now : Int} {key : Bytes}

theorem storedAlike_iff (tidy : db.Tidy) (clocked : db.Clocked key) {first second : Action σ} :
    StoredAlike db now key first second ↔
      ∃ left right, first ((db.live now key).map Slot.entry) = .ok left ∧
        second ((db.live now key).map Slot.entry) = .ok right ∧
        (left.change.apply db.logiclock (db.live now key)).map Slot.visible =
          (right.change.apply db.logiclock (db.live now key)).map Slot.visible := by
  constructor
  · rintro ⟨⟨one, left⟩, ⟨two, right⟩, ranLeft, ranRight, alike⟩
    obtain ⟨actedLeft, changedLeft⟩ := RedisDb.changed_run tidy ranLeft
    obtain ⟨actedRight, changedRight⟩ := RedisDb.changed_run tidy ranRight
    refine ⟨left, right, actedLeft, actedRight, ?_⟩
    rw [← changedLeft.here, ← changedRight.here]
    exact alike key
  · rintro ⟨left, right, actedLeft, actedRight, alike⟩
    obtain ⟨one, ranLeft⟩ := RedisDb.run_of_action tidy clocked actedLeft
    obtain ⟨two, ranRight⟩ := RedisDb.run_of_action tidy clocked actedRight
    have changedLeft := (RedisDb.changed_run tidy ranLeft).2
    have changedRight := (RedisDb.changed_run tidy ranRight).2
    refine ⟨(one, left), (two, right), ranLeft, ranRight, fun other => ?_⟩
    change (one.slot other).map Slot.visible = (two.slot other).map Slot.visible
    by_cases here : other = key
    · rw [here, changedLeft.here, changedRight.here]
      exact alike
    · rw [changedLeft.elsewhere other here, changedRight.elsewhere other here]

end Runs

/-! ### The two routines on a list with room -/

section Lists

variable {limits : Limits} {grow : End} {client : Client} {values : List Bytes}

theorem length_push (list : RedisList) (value : StringObject) :
    (list.push limits grow value).length = list.length + 1 := by
  rw [← length_items, items_push, ← grow.length_aged, End.aged_push, List.length_append,
    End.length_aged, length_items]
  rfl

theorem pushCopies_eq (value : StringObject) {count : Nat} {list : RedisList}
    (room : (list.length + count : Int) ≤ limits.listMaxSize) :
    ∃ after, pushCopies limits grow value count list = (after, 0) ∧
      grow.aged after.items =
        grow.aged list.items ++ List.replicate count value.decoded := by
  induction count generalizing list with
  | zero => exact ⟨list, rfl, (List.append_nil _).symm⟩
  | succ count ih =>
    have fits : fitsLimit (list.length + 1) limits.listMaxSize = true := by
      unfold fitsLimit
      rw [decide_eq_true_eq]
      right
      push_cast at room ⊢
      omega
    have left : ((list.push limits grow value).length + count : Int) ≤
        limits.listMaxSize := by
      rw [length_push]
      push_cast at room ⊢
      omega
    obtain ⟨after, ran, aged⟩ := ih left
    refine ⟨after, ?_, ?_⟩
    · rw [← ran]
      exact if_pos fits
    · rw [aged, items_push, End.aged_push, List.append_assoc]
      rfl

theorem takenCount_of_room {limit listMaxSize : Int} {length pushed : Nat}
    (room : (length + pushed : Int) ≤ listMaxSize) :
    takenCount limit listMaxSize length pushed =
      pushed - skippedCount limit length pushed := by
  have most : skippedCount limit length pushed ≤ pushed := Nat.sub_le ..
  unfold takenCount
  omega

theorem pushAction_some (limit : Int) (values : List Bytes) (entry : Entry σ) :
    pushAction limits grow client limit values (some entry) =
      typed Robj.asList entry fun list => versioned client entry fun version =>
        pushList limits grow limit values (some list) >>=
          pushedOutcome client version (values.length + 2) (some entry.version) := by
  obtain ⟨value, stored, logiclock⟩ := entry
  cases value with
  | list list =>
    unfold pushAction typed versioned
    dsimp only [Option.map_some, listOf, Robj.asList]
    cases client.nextVersion (some stored) <;> rfl
  | _ => rfl

theorem pushAction_eq {entry : Entry σ} {list : RedisList} {version : UInt16} (maxCount : Int)
    (isList : entry.value = .list list)
    (accepted : client.nextVersion (some entry.version) = some version) (nonempty : values ≠ [])
    (room : (list.length + values.length : Int) ≤ limits.listMaxSize)
    (limit : limits.listMaxSize < 2 ^ 31) (argc : values.length + 2 < 2 ^ 31) :
    ∃ after out,
      pushAction limits grow client maxCount values (some entry) = .ok out ∧
      out.change = .store (.list after) version client.expireOrNot ∧
      grow.aged after.items =
        (grow.aged list.items).drop (poppedCount maxCount list.length values.length) ++
          values.drop (skippedCount maxCount list.length values.length) := by
  have least : 0 < values.length := List.length_pos_of_ne_nil nonempty
  have length : (contents (some list)).length = list.length := length_items list
  obtain ⟨after, ran, pushed⟩ := @pushList_eq limits grow maxCount values (some list)
    argc (by rw [length]; omega)
  rw [length, takenCount_of_room room] at ran pushed
  have most : skippedCount maxCount list.length values.length ≤ values.length := Nat.sub_le ..
  rw [Nat.add_sub_cancel' most] at ran
  obtain ⟨left, rfl⟩ := Option.isSome_iff_exists.mp (pushed.isSome (.inl rfl))
  have whole : (values.drop (skippedCount maxCount list.length values.length)).take
      (values.length - skippedCount maxCount list.length values.length) =
        values.drop (skippedCount maxCount list.length values.length) :=
    List.take_of_length_le (List.length_drop ..).le
  have aged := pushed.aged
  rw [whole] at aged
  have stored : (2 + (values.length : Int)) ≠ 2 := by omega
  obtain ⟨out, made, change⟩ : ∃ out : Outcome σ,
      pushedOutcome client version (values.length + 2) (some entry.version)
          (some left, 2 + (values.length : Int)) = .ok out ∧
        out.change = .store (.list left) version client.expireOrNot :=
    ⟨_, rfl, if_pos stored⟩
  refine ⟨left, out, ?_, change, aged⟩
  rw [pushAction_some]
  obtain ⟨value, stored, logiclock⟩ := entry
  cases isList
  refine (versioned_accepted accepted _).trans ?_
  rw [ran]
  exact made

theorem pushxn_eq {entry : Entry σ} {list : RedisList} {version : UInt16} {first : Bytes}
    {rest : List Bytes} (isList : entry.value = .list list)
    (accepted : client.nextVersion (some entry.version) = some version)
    (room : (list.length + (first :: rest).length : Int) ≤ limits.listMaxSize) :
    ∃ after out,
      pushxnGenericCommand limits grow client (first :: rest) (some entry) = .ok out ∧
      out.change = .store (.list after) version client.expireOrNot ∧
      grow.aged after.items =
        grow.aged list.items ++ List.replicate (rest.length + 1) first := by
  obtain ⟨after, copied, aged⟩ := @pushCopies_eq limits grow
    (StringObject.raw first).tryObjectEncoding (rest.length + 1) list room
  rw [StringObject.decoded_tryObjectEncoding] at aged
  obtain ⟨value, stored, logiclock⟩ := entry
  cases isList
  refine ⟨after, _, versioned_accepted accepted _, ?_, aged⟩
  rw [List.length_cons, copied]

theorem counts_of_untrimmed {limit : Int} {length pushed : Nat}
    (untrimmed : 0 < limit → (length + pushed : Int) ≤ limit) :
    poppedCount limit length pushed = 0 ∧ skippedCount limit length pushed = 0 := by
  have kept : keepCount limit (length + pushed) = length + pushed := by
    unfold keepCount
    split_ifs with bounded
    · have enough := untrimmed bounded
      omega
    · rfl
  unfold poppedCount skippedCount
  rw [kept]
  omega

theorem aged_alike_iff {limit : Int} {old : List Bytes} {first : Bytes} {rest : List Bytes} :
    (grow.aged old).drop (poppedCount limit old.length (first :: rest).length) ++
        (first :: rest).drop (skippedCount limit old.length (first :: rest).length) =
      grow.aged old ++ List.replicate (rest.length + 1) first ↔
        PushedAlike limit old.length (first :: rest) := by
  constructor
  · intro same
    have lengths := congrArg List.length same
    rw [List.length_append, List.length_append, List.length_drop, List.length_drop,
      List.length_replicate, End.length_aged] at lengths
    have untrimmed : 0 < limit →
        (old.length + (first :: rest).length : Int) ≤ limit := by
      intro bounded
      unfold poppedCount skippedCount keepCount at lengths
      rw [if_pos bounded] at lengths
      rw [List.length_cons] at lengths ⊢
      omega
    obtain ⟨popped, skipped⟩ := counts_of_untrimmed untrimmed
    rw [popped, skipped, List.drop_zero, List.drop_zero] at same
    refine ⟨untrimmed, fun value member => ?_⟩
    rw [List.append_cancel_left same] at member
    rw [List.eq_of_mem_replicate member]
    rfl
  · rintro ⟨untrimmed, alike⟩
    obtain ⟨popped, skipped⟩ := counts_of_untrimmed untrimmed
    have copies : first :: rest = List.replicate (rest.length + 1) first :=
      List.eq_replicate_iff.mpr
        ⟨rfl, fun value member => (Option.some.inj (alike value member)).symm⟩
    rw [popped, skipped, List.drop_zero, List.drop_zero, ← copies]

end Lists

/-! ### The comparison -/

/-- A push to a list that is there leaves what the conditional push leaves, when its values are
the same and fit into the bound, or when the version is refused; and the conditional push to a
key that is not there leaves everything as it was. -/
theorem pushx_stores_as_push_iff (limits : Limits) (growing : End) (client : Client)
    (maxCount : Int) {db : RedisDb σ} {now : Int} {key : Bytes} {values : List Bytes}
    (tidy : db.Tidy) (clocked : db.Clocked key) (nonempty : values ≠ [])
    (limit : limits.listMaxSize < 2 ^ 31) (argc : values.length + 2 < 2 ^ 31) :
    (∀ slot list, db.live now key = some slot → slot.entry.value = .list list →
      (list.length + values.length : Int) ≤ limits.listMaxSize →
      (StoredAlike db now key (pushAction limits growing client maxCount values)
          (pushxnGenericCommand limits growing client values) ↔
        client.nextVersion (some slot.entry.version) = none ∨
          PushedAlike maxCount list.length values)) ∧
    (db.live now key = none → ∃ after outcome,
      db.run now key (pushxnGenericCommand limits growing client values) = .ok (after, outcome) ∧
        outcome.code = .okNotExist ∧ after.live now key = none ∧
        ∀ other, other ≠ key → after.slot other = db.slot other) := by
  obtain ⟨first, rest, rfl⟩ := List.exists_cons_of_ne_nil nonempty
  constructor
  · intro slot list found isList room
    rw [storedAlike_iff tidy clocked, found, Option.map_some]
    cases accepted : client.nextVersion (some slot.entry.version) with
    | none =>
      obtain ⟨⟨value, stored, logiclock⟩, expire⟩ := slot
      cases isList
      refine iff_of_true ⟨_, _, ?_, versioned_refused accepted _, rfl⟩ (.inl rfl)
      rw [pushAction_some]
      exact versioned_refused accepted _
    | some version =>
      obtain ⟨pushed, left, ranLeft, changeLeft, agedLeft⟩ :=
        @pushAction_eq σ limits growing client _ _ _ _ maxCount isList accepted nonempty room
          limit argc
      obtain ⟨copied, right, ranRight, changeRight, agedRight⟩ :=
        @pushxn_eq σ limits growing client _ _ _ _ _ isList accepted room
      rw [← length_items] at agedLeft ⊢
      rw [← @aged_alike_iff growing, ← agedLeft, ← agedRight]
      constructor
      · rintro ⟨_, _, sameLeft, sameRight, alike⟩
        rw [ranLeft] at sameLeft
        rw [ranRight] at sameRight
        cases sameLeft
        cases sameRight
        rw [changeLeft, changeRight] at alike
        have contents := congrArg Visible.content (Option.some.inj alike)
        exact .inr (congrArg growing.aged (Content.list.inj contents))
      · rintro (refused | aged)
        · cases refused
        · refine ⟨left, right, ranLeft, ranRight, ?_⟩
          rw [changeLeft, changeRight]
          have items := growing.aged_injective aged
          simp [Change.apply, Slot.visible, Robj.content, items]
  · intro absent
    have acted : pushxnGenericCommand limits growing client (first :: rest)
        ((db.live now key).map Slot.entry) = .ok (.refuse .okNotExist 0) := by
      rw [absent]
      rfl
    obtain ⟨after, ran⟩ := RedisDb.run_of_action tidy clocked acted
    have changed := (RedisDb.changed_run tidy ran).2
    refine ⟨after, _, ran, rfl, ?_, changed.elsewhere⟩
    unfold RedisDb.live
    rw [changed.here, absent]
    rfl

theorem clocked_singleList (item : Bytes) : (singleList item).Clocked [107] := by
  intro entry found
  cases found
  change (1 : UInt32) ≠ 0
  decide

/-- The same value twice goes to the list as a push would bring it there. -/
theorem pushx_stores_twice :
    StoredAlike (singleList [97]) 5 [107]
      (pushAction (smallLists 8192) .tail ⟨0, true, -1⟩ 0 [[98], [98]])
      (pushxnGenericCommand (smallLists 8192) .tail ⟨0, true, -1⟩ [[98], [98]]) :=
  ((pushx_stores_as_push_iff (smallLists 8192) .tail ⟨0, true, -1⟩ 0 (fun _ _ => rfl)
    (clocked_singleList [97]) (by decide) (by decide) (by decide)).1 _ _ rfl rfl
    (by decide)).mpr (.inr ⟨by decide, by decide⟩)

/-- The second of two values is not stored, and the first one is there twice. -/
theorem pushx_repeats_first_value :
    ∃ pushed copied stored repeated,
      (singleList [97]).run 5 [107]
          (pushAction (smallLists 8192) .tail ⟨0, true, -1⟩ 0 [[98], [99]]) =
        .ok (pushed, stored) ∧
      (singleList [97]).run 5 [107]
          (pushxnGenericCommand (smallLists 8192) .tail ⟨0, true, -1⟩ [[98], [99]]) =
        .ok (copied, repeated) ∧
      stored.code = .ok ∧ repeated.code = .ok ∧
      pushed.valueOf [107] = some (.list (.ziplist [[97], [98], [99]])) ∧
      copied.valueOf [107] = some (.list (.ziplist [[97], [98], [98]])) :=
  ⟨_, _, _, _, rfl, rfl, rfl, rfl, rfl, rfl⟩

end Tair.Rdb
