/-
The commands on lists, pushes as they act on what is found among them. A conditional push is
for a list that is there. It is a routine of its own, which is also the one that inserts.
-/

import Tair.Rdb.Outcome

namespace Tair.Rdb

open Tair.Library

variable {σ : Type}

/-! ### Equal strings -/

def cString (bytes : Bytes) : Bytes := bytes.takeWhile (· ≠ 0)

/-- The texts that `compareStringObjects` compares. With an integer on one side it is
`strcmp` that does. -/
def comparedTexts : StringObject → StringObject → Bytes × Bytes
  | .raw left, .raw right => (left, right)
  | left, right => (cString left.decoded, cString right.decoded)

def equalStringObjects : StringObject → StringObject → Bool
  | .int left, .int right => left = right
  | left, right => (comparedTexts left right).1 = (comparedTexts left right).2

/-! ### Lists in either encoding -/

namespace RedisList

def reshape (change : ∀ {α : Type}, List α → List α) : RedisList → RedisList
  | .ziplist items => .ziplist (change items)
  | .linkedlist items => .linkedlist (change items)

/-- The elements as `listTypeGet` and `listTypePop` give them. -/
def objects : RedisList → List StringObject
  | .ziplist items => items.map (fun item => (StringObject.raw item).tryObjectEncoding)
  | .linkedlist items => items

/-- The nodes of `lrangeCommand`. -/
def nodes : RedisList → List (ValueNode σ)
  | .ziplist items =>
    items.map fun item =>
      match (StringObject.raw item).tryObjectEncoding with
      | .raw bytes => .buffer bytes
      | .int value => .longLong value
  | .linkedlist items => items.map ValueNode.robj

def set (index : Nat) (value : StringObject) : RedisList → RedisList
  | .ziplist items => .ziplist (items.set index value.decoded)
  | .linkedlist items => .linkedlist (items.set index value)

/-- The position of the first element that is equal to this string, `listTypeEqual`. -/
def position (refval : StringObject) : RedisList → Option Nat
  | .ziplist items => items.findIdx? (fun item => item = refval.decoded)
  | .linkedlist items => items.findIdx? (equalStringObjects refval)

def insertAt (index : Nat) (value : StringObject) : RedisList → RedisList
  | .ziplist items => .ziplist (items.insertIdx index value.decoded)
  | .linkedlist items => .linkedlist (items.insertIdx index value)

end RedisList

/-- The elements that pass the test go, at most so many of them, and how many went. -/
def removeSome {α : Type} (test : α → Bool) : Nat → List α → List α × Nat
  | 0, items => (items, 0)
  | _ + 1, [] => ([], 0)
  | count + 1, first :: rest =>
    if test first then
      let left := removeSome test count rest
      (left.1, left.2 + 1)
    else
      let left := removeSome test (count + 1) rest
      (first :: left.1, left.2)

/-- `removeSome` from the head of the list or from its tail. -/
def removeFrom {α : Type} (test : α → Bool) (backwards : Bool) (count : Nat) (items : List α) :
    List α × Nat :=
  if backwards then
    let left := removeSome test count items.reverse
    (left.1.reverse, left.2)
  else removeSome test count items

def RedisList.remove (value : StringObject) (backwards : Bool) (count : Nat) :
    RedisList → RedisList × Nat
  | .ziplist items =>
    let left := removeFrom (fun item => item = value.decoded) backwards count items
    (.ziplist left.1, left.2)
  | .linkedlist items =>
    let left := removeFrom (equalStringObjects value) backwards count items
    (.linkedlist left.1, left.2)

/-! ### Pushes -/

/-- The outcome of `storePushed`. -/
def pushedOutcome (client : Client) (version : UInt16) (argc : Nat) (found : Option UInt16) :
    Option RedisList × Int → Except Fault (Outcome σ)
  | (none, _) => .error .nullPointer
  | (some list, i) =>
    .ok
      { change :=
          if i ≠ 2 then .store (.list list) version client.expireOrNot
          else .store (.list list) (found.getD version) .keep
        code := if i < argc then .errDataLenLimited else .ok
        answer := .pushed
          { pushedNum := UInt32.ofNat (i - 2).toNat
            listLen := UInt32.ofNat list.length }
        version := found.getD 0 }

variable (limits : Limits)

/-- `pushnGenericCommand` on what it finds. -/
def pushAction (growing : End) (client : Client) (maxCount : Int) (values : List Bytes) :
    Action σ := fun found =>
  match listOf found, client.nextVersion (found.map Entry.version) with
  | none, _ => .ok (.refuse .errWrongTypeError ((found.map Entry.version).getD 0))
  | some _, none => .ok (.refuse .errVersionError ((found.map Entry.version).getD 0))
  | some list, some version =>
    pushList limits growing maxCount values list >>=
      pushedOutcome client version (values.length + 2) (found.map Entry.version)

/-- The same value is pushed for every argument, as long as the list is not full. What is left
of the arguments is counted. -/
def pushCopies (limits : Limits) (growing : End) (value : StringObject) :
    Nat → RedisList → RedisList × Nat
  | 0, list => (list, 0)
  | count + 1, list =>
    if fitsLimit (list.length + 1) limits.listMaxSize then
      pushCopies limits growing value count (list.push limits growing value)
    else (list, count + 1)

/-- `pushxnGenericCommand` without a `refval`: `lpushxCommand` and `rpushxCommand`. -/
def pushxnGenericCommand (growing : End) (client : Client) (values : List Bytes) : Action σ :=
  match values with
  | [] => fun _ => .error .wildPointer
  | first :: _ =>
    onExisting Robj.asList fun entry list =>
      versioned client entry fun version =>
        let pushed := pushCopies limits growing (StringObject.raw first).tryObjectEncoding
          values.length list
        .ok
          { change := .store (.list pushed.1) version client.expireOrNot
            code := if 0 < pushed.2 then .errDataLenLimited else .ok
            answer := .pushed
              { pushedNum := UInt32.ofNat (values.length - pushed.2)
                listLen := UInt32.ofNat pushed.1.length }
            version := entry.version }

def RedisList.convertIfLonger (list : RedisList) : RedisList :=
  if limits.listMaxZiplistEntries < list.length then list.convert else list

/-- `pushxnGenericCommand` with a `refval`. The list may be converted before it turns out that
there is no such element. -/
def linsertCommand (place : End) (client : Client) (refval value : Bytes) : Action σ :=
  onExisting Robj.asList fun entry list =>
    versioned client entry fun version =>
      let value := (StringObject.raw value).tryObjectEncoding
      let list := list.tryConversion limits value
      match list.position (.raw refval) with
      | none =>
        .ok
          { change := .store (.list list) entry.version .keep
            code := .errCnegoError
            answer := .nothing
            version := entry.version }
      | some index =>
        let index := match place with
          | .head => index
          | .tail => index + 1
        let list := (list.insertAt index value).convertIfLonger limits
        .ok
          { change := .store (.list list) version client.expireOrNot
            code := .ok
            answer := .pushed { pushedNum := 1, listLen := UInt32.ofNat list.length }
            version := entry.version }

/-! ### The other commands -/

/-- An index, counted from the end when it is negative. -/
def indexIn (length : Nat) (index : Int) : Option Nat :=
  let index := if index < 0 then length + index else index
  if 0 ≤ index ∧ index < length then some index.toNat else none

def rangeIn (length : Nat) (first last : Int) : Option (Nat × Nat) :=
  let first := if first < 0 then length + first else first
  let last := if last < 0 then length + last else last
  let first := if first < 0 then 0 else first
  if last < first ∨ (length : Int) ≤ first then none
  else
    let last := if (length : Int) ≤ last then (length : Int) - 1 else last
    some (first.toNat, (last - first + 1).toNat)

def llenCommand : Action σ :=
  onExisting Robj.asList fun entry list => .ok (.read (.number list.length) entry.version)

def lindexCommand (index : Int) : Action σ :=
  onExisting Robj.asList fun entry list =>
    match (indexIn list.length index).bind (list.objects[·]?) with
    | none => .ok (.refuse .errOutOfRange entry.version)
    | some object => .ok (.read (.values [.robj object]) entry.version)

def lsetCommand (client : Client) (index : Int) (value : Bytes) : Action σ :=
  onExisting Robj.asList fun entry list =>
    versioned client entry fun version =>
      let value := (StringObject.raw value).tryObjectEncoding
      let list := list.tryConversion limits value
      match indexIn list.length index with
      | none =>
        .ok
          { change := .store (.list list) entry.version .keep
            code := .errOutOfRange
            answer := .nothing
            version := entry.version }
      | some index =>
        .ok
          { change := .store (.list (list.set index value)) version .keep
            code := .ok
            answer := .nothing
            version := entry.version }

/-- The elements are popped one by one. A list that is empty from the start is not deleted. -/
def popnGenericCommand (place : End) (client : Client) (count : Int) : Action σ :=
  onExisting Robj.asList fun entry list =>
    if count ≤ 0 then .ok (.refuse .okButCzero entry.version)
    else
      versioned client entry fun version =>
        let count := count.toNat
        let popped := match place with
          | .head => list.objects.take count
          | .tail => list.objects.reverse.take count
        let left := match place with
          | .head => list.reshape (List.drop count)
          | .tail => list.reshape (fun items => items.take (items.length - count))
        .ok
          { change := storeUnless (0 < list.length ∧ left.length = 0) (.list left) version
              client.expireOrNot
            code := .ok
            answer := .values (popped.map ValueNode.robj)
            version := entry.version + 1 }

def lrangeCommand (first last : Int) : Action σ :=
  onExisting Robj.asList fun entry list =>
    match rangeIn list.length first last with
    | none => .ok (.refuse .errOutOfRange entry.version)
    | some range =>
      .ok (.read (.values ((list.nodes.drop range.1).take range.2)) entry.version)

def ltrimCommand (client : Client) (first last : Int) : Action σ :=
  onExisting Robj.asList fun entry list =>
    versioned client entry fun version =>
      let range := (rangeIn list.length first last).getD (list.length, 0)
      let left := list.reshape (fun items => (items.drop range.1).take range.2)
      .ok
        { change := storeUnless (left.length = 0) (.list left) version client.expireOrNot
          code := .ok
          answer := .nothing
          version := entry.version }

/-- A count of zero is no limit. -/
def lremCommand (client : Client) (toremove : Int) (value : Bytes) : Action σ :=
  onExisting Robj.asList fun entry list =>
    versioned client entry fun version =>
      let count := if toremove = 0 then list.length else toremove.natAbs
      let left := list.remove (StringObject.raw value).tryObjectEncoding (toremove < 0) count
      .ok
        { change := storeUnless (left.1.length = 0) (.list left.1) version client.expireOrNot
          code := .ok
          answer := .number left.2
          version := entry.version }

end Tair.Rdb
