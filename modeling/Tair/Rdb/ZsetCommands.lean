/-
The commands on sorted sets. The skip list has the members in ascending order of their scores,
and in the order of their texts where scores are equal; the table of the members leads to their
scores.
-/

import Tair.Library.Keyed
import Tair.Rdb.ListCommands

namespace Tair.Rdb

open Tair.Library

/-- The arithmetic of scores: a sum, unless it is not a number, and the score that comes back
after it has been printed and read. -/
structure ScoreOps (σ : Type) where
  add : σ → σ → Option σ
  carried : σ → σ

variable {σ : Type}

/-! ### The skip list -/

abbrev ZslNode (σ : Type) := StringObject × σ

def memberOf (node : ZslNode σ) : Bytes := node.1.decoded

/-- `compareStringObjects` is negative. -/
def textLess (left right : StringObject) : Bool :=
  (comparedTexts left right).1 < (comparedTexts left right).2

section Order

variable [LinearOrder σ]

def comesBefore (score : σ) (object : StringObject) (node : ZslNode σ) : Bool :=
  node.2 < score ∨ (node.2 = score ∧ textLess node.1 object)

variable (nodes : List (ZslNode σ))

def zslInsert (score : σ) (object : StringObject) : List (ZslNode σ) :=
  nodes.takeWhile (comesBefore score object) ++
    (object, score) :: nodes.dropWhile (comesBefore score object)

/-- The first node that does not come before the place has to be the one. -/
def zslDelete (score : σ) (object : StringObject) : Except Fault (List (ZslNode σ)) :=
  match nodes.dropWhile (comesBefore score object) with
  | [] => .error .assertFailed
  | node :: rest =>
    if node.2 = score ∧ equalStringObjects node.1 object then
      .ok (nodes.takeWhile (comesBefore score object) ++ rest)
    else .error .assertFailed

/-- The nodes that `zslDeleteRangeByScore` leaves. -/
def zslDeleteRangeByScore (low high : σ) : List (ZslNode σ) :=
  nodes.takeWhile (fun node => node.2 < low) ++
    (nodes.dropWhile (fun node => node.2 < low)).dropWhile (fun node => node.2 ≤ high)

/-! The walks of `genericZrangebyscoreCommand`. A place in the list is given by the nodes behind
it, the nearest one first, and those from it on. -/

def zslFirstWithScore (score : σ) : List (ZslNode σ) × List (ZslNode σ) :=
  ((nodes.takeWhile (fun node => node.2 < score)).reverse,
    nodes.dropWhile (fun node => node.2 < score))

def backOver (bound : σ) : List (ZslNode σ) → List (ZslNode σ) →
    List (ZslNode σ) × List (ZslNode σ)
  | behind, [] => (behind, [])
  | [], node :: ahead => if bound < node.2 then ([], []) else ([], node :: ahead)
  | previous :: behind, node :: ahead =>
    if bound < node.2 then backOver bound behind (previous :: node :: ahead)
    else (previous :: behind, node :: ahead)

def forwardOver (bound : σ) : List (ZslNode σ) → List (ZslNode σ) →
    List (ZslNode σ) × List (ZslNode σ)
  | behind, node :: next :: ahead =>
    if next.2 = bound then forwardOver bound (node :: behind) (next :: ahead)
    else (behind, node :: next :: ahead)
  | behind, ahead => (behind, ahead)

/-- The last node stands for one behind the end. -/
def tailUnless : List (ZslNode σ) × List (ZslNode σ) → List (ZslNode σ) × List (ZslNode σ)
  | (last :: behind, []) => (behind, [last])
  | place => place

def backwards : List (ZslNode σ) × List (ZslNode σ) → List (ZslNode σ)
  | (_, []) => []
  | (behind, node :: _) => node :: behind

/-- The nodes that `genericZrangebyscoreCommand` comes over, from its first one on. -/
def scoreWalk (reverse : Bool) (bound : σ) (nodes : List (ZslNode σ)) : List (ZslNode σ) :=
  let found := zslFirstWithScore nodes bound
  if reverse then
    let place := tailUnless found
    let place := backOver bound place.1 place.2
    backwards (forwardOver bound place.1 place.2)
  else found.2

def scoreRange (reverse : Bool) (first last : σ) (nodes : List (ZslNode σ)) :
    List (ZslNode σ) :=
  (scoreWalk reverse first nodes).takeWhile fun node =>
    if reverse then last ≤ node.2 else node.2 ≤ last

/-- `zslGetRank`, counted from zero. -/
def zslGetRank (score : σ) (object : StringObject) : Option Nat :=
  let passed := nodes.takeWhile fun node =>
    node.2 < score ∨ (node.2 = score ∧ textLess object node.1 = false)
  if passed.getLast?.any (fun node => equalStringObjects node.1 object) then
    some (passed.length - 1)
  else none

end Order

/-- `limit--` as a test: a negative limit is none. -/
def takeLimit {α : Type} (limit : Int) (items : List α) : List α :=
  if limit < 0 then items else items.take limit.toNat

def memberNodes (withScores : Bool) (nodes : List (ZslNode σ)) : List (ValueNode σ) :=
  nodes.flatMap fun node =>
    node.1.node :: if withScores then [.double node.2] else []

/-! ### Writing commands -/

section Writing

variable [LinearOrder σ]

/-- The members after a score has been set. A member that is there is moved to its new place,
unless the score is the same. -/
def setScore (nodes : List (ZslNode σ)) (object : StringObject) (score : σ) :
    Except Fault (List (ZslNode σ)) :=
  match Keyed.find memberOf nodes object.decoded with
  | none => .ok (zslInsert nodes score object)
  | some old =>
    if score = old.2 then .ok nodes
    else do
      let left ← zslDelete nodes old.2 old.1
      pure (zslInsert left score old.1)

/-- The end of `zaddGenericCommand`, for a score that is given or added to the old one. -/
def addScored (settings : Settings) (scores : ScoreOps σ) (client : Client) (incr : Bool)
    (object : StringObject) (score : σ) (stored version found : UInt16)
    (nodes : List (ZslNode σ)) : Except Fault (Outcome σ) :=
  let old := Keyed.find memberOf nodes object.decoded
  if fitsLimit (nodes.length + 1) settings.zsetMaxSize = false ∧ old.isNone then
    .ok
      { change := .store (.zset nodes) stored .keep
        code := .errDataLenLimited
        answer := .nothing
        version := found }
  else
    let sum := if incr then old.elim (some score) (fun node => scores.add score node.2)
      else some score
    match sum with
    | none =>
      .ok
        { change := .store (.zset nodes) stored .keep
          code := .errIsNotNumber
          answer := .nothing
          version := found }
    | some score => do
      let after ← setScore nodes object score
      pure
        { change := .store (.zset after) version client.expireOrNot
          code := if incr ∨ old.isNone then .ok else .okButAlreadyExist
          answer := if incr then .score score else .number (if old.isNone then 1 else 0)
          version := found }

/-- `zaddCommand` and `zincrbyCommand`. A new key is added with the version of the request. -/
def zaddGenericCommand (settings : Settings) (scores : ScoreOps σ)
    (client : Client) (incr : Bool) (member : Bytes) (score : σ) : Action σ
  | none =>
    addScored settings scores client incr (StringObject.raw member).tryObjectEncoding
      (scores.carried score) client.version client.firstVersion 0 []
  | some entry =>
    typed Robj.asZset entry fun nodes =>
      versioned client entry fun version =>
        addScored settings scores client incr (StringObject.raw member).tryObjectEncoding
          (scores.carried score) entry.version version entry.version nodes

def zremCommand (client : Client) (member : Bytes) : Action σ :=
  onExisting Robj.asZset fun entry nodes =>
    versioned client entry fun version =>
      let object := (StringObject.raw member).tryObjectEncoding
      match Keyed.find memberOf nodes object.decoded with
      | none => .ok (.refuse .okNotExist entry.version)
      | some node => do
        let left ← zslDelete nodes node.2 object
        pure
          { change := storeUnless (left.length = 0) (.zset left) version client.expireOrNot
            code := .ok
            answer := .nothing
            version := entry.version }

/-- The end of the commands that remove a range. A set that was empty is deleted too. -/
def removeRange (client : Client) (entry : Entry σ) (version : UInt16)
    (nodes left : List (ZslNode σ)) : Outcome σ :=
  if left.length < nodes.length then
    { change := storeUnless (left.length = 0) (.zset left) version client.expireOrNot
      code := .ok
      answer := .number (nodes.length - left.length)
      version := entry.version }
  else
    { change := storeUnless (left.length = 0) (.zset left) entry.version .keep
      code := .okRangeHaveNone
      answer := .number 0
      version := entry.version }

def zremrangebyscoreCommand (scores : ScoreOps σ) (client : Client) (low high : σ) : Action σ :=
  onExisting Robj.asZset fun entry nodes =>
    versioned client entry fun version =>
      .ok (removeRange client entry version nodes
        (zslDeleteRangeByScore nodes (scores.carried low) (scores.carried high)))

end Writing

def zremrangebyrankCommand (client : Client) (first last : Int) : Action σ :=
  onExisting Robj.asZset fun entry nodes =>
    versioned client entry fun version =>
      match rangeIn nodes.length first last with
      | none =>
        .ok
          { change := .keep
            code := .okRangeHaveNone
            answer := .number 0
            version := entry.version }
      | some range =>
        .ok (removeRange client entry version nodes
          (nodes.take range.1 ++ nodes.drop (range.1 + range.2)))

/-! ### Reading commands -/

def zrangeGenericCommand (reverse withScores : Bool) (first last : Int) : Action σ :=
  onExisting Robj.asZset fun entry nodes =>
    match rangeIn nodes.length first last with
    | none => .ok (.refuse .okRangeHaveNone entry.version)
    | some range =>
      let walked := if reverse then nodes.reverse else nodes
      .ok (.read (.values (memberNodes withScores ((walked.drop range.1).take range.2)))
        entry.version)

def zcardCommand : Action σ :=
  onExisting Robj.asZset fun entry nodes => .ok (.read (.number nodes.length) entry.version)

def zscoreCommand (member : Bytes) : Action σ :=
  onExisting Robj.asZset fun entry nodes =>
    match Keyed.find memberOf nodes member with
    | none => .ok (.refuse .okNotExist entry.version)
    | some node => .ok (.read (.score node.2) entry.version)

section Reading

variable [LinearOrder σ]

/-- `genericZrangebyscoreCommand` for the members. -/
def zrangebyscoreCommand (scores : ScoreOps σ) (reverse : Bool) (first last : σ) (limit : Int)
    (withScores : Bool) : Action σ :=
  onExisting Robj.asZset fun entry nodes =>
    let range := takeLimit limit
      (scoreRange reverse (scores.carried first) (scores.carried last) nodes)
    if range.isEmpty then .ok (.refuse .okRangeHaveNone entry.version)
    else .ok (.read (.values (memberNodes withScores range)) entry.version)

/-- `genericZrangebyscoreCommand` for their number, which it does not set without a first node. -/
def zcountCommand (scores : ScoreOps σ) (first last : σ) : Action σ :=
  onExisting Robj.asZset fun entry nodes =>
    let range := scoreRange false (scores.carried first) (scores.carried last) nodes
    if (scoreWalk false (scores.carried first) nodes).isEmpty then
      .ok (.refuse .okRangeHaveNone entry.version)
    else if range.isEmpty then
      .ok
        { change := .keep
          code := .okRangeHaveNone
          answer := .number 0
          version := entry.version }
    else .ok (.read (.number range.length) entry.version)

def zrankGenericCommand (reverse : Bool) (member : Bytes) : Action σ :=
  onExisting Robj.asZset fun entry nodes =>
    let object := (StringObject.raw member).tryObjectEncoding
    match (Keyed.find memberOf nodes object.decoded).bind
        (fun node => zslGetRank nodes node.2 object) with
    | none => .ok (.refuse .okNotExist entry.version)
    | some rank =>
      .ok (.read (.number (if reverse then (nodes.length : Int) - (rank + 1) else rank))
        entry.version)

end Reading

end Tair.Rdb
