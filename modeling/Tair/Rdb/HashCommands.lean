/-
The commands on hashes. A small hash is a zipmap of byte strings; a large one is a table, where
decimal integers are kept as integers. The commands compare time stamps of fields, and an integer
has none.
-/

import Tair.Library.Keyed
import Tair.Rdb.StringCommands

namespace Tair.Rdb

open Tair.Library

variable {σ : Type}

/-- A field as an argument of a command. Its time stamp comes from the filters of the area. -/
structure FieldArgument where
  bytes : Bytes
  timestamp : UInt32
deriving DecidableEq, Repr

/-! ### Fields -/

namespace HashField

def decoded : HashField → Bytes
  | .raw bytes _ => bytes
  | .int value => ll2string value

/-- `tryObjectEncoding` of a field. -/
def encode (bytes : Bytes) (timestamp : UInt32) : HashField :=
  match representedLong bytes with
  | some value => .int value
  | none => .raw bytes timestamp

/-- `sdslogiclock` of a field. -/
def timestamp : HashField → Except Fault UInt32
  | .raw _ timestamp => .ok timestamp
  | .int _ => .error .wildPointer

end HashField

def FieldArgument.encode (field : FieldArgument) : HashField :=
  HashField.encode field.bytes field.timestamp

/-! ### Hashes in either encoding -/

def tableKey (entry : HashField × StringObject) : Bytes := entry.1.decoded

namespace RedisHash

def length : RedisHash → Nat
  | .zipmap entries => entries.length
  | .table entries => entries.length

/-- `convertToRealHash`. -/
def convert : RedisHash → RedisHash
  | .zipmap entries =>
    .table (entries.map fun entry =>
      (HashField.encode entry.field entry.timestamp,
        (StringObject.raw entry.value).tryObjectEncoding))
  | .table entries => .table entries

/-- `hashTypeTryConversion` for these arguments. -/
def tryConversion (settings : Settings) (arguments : List Bytes) (hash : RedisHash) : RedisHash :=
  if arguments.any (fun argument => settings.hashMaxZipmapValue < argument.length) then
    hash.convert
  else hash

/-- `hashTypeDelete`, and whether the field was there. -/
def delete (hash : RedisHash) (field : Bytes) : RedisHash × Bool :=
  match hash with
  | .zipmap entries =>
    (.zipmap (Keyed.erase ZipmapEntry.field entries field),
      (Keyed.find ZipmapEntry.field entries field).isSome)
  | .table entries =>
    (.table (Keyed.erase tableKey entries field), (Keyed.find tableKey entries field).isSome)

def entryOf (hash : RedisHash) (field : Bytes) :
    Except Fault (Option (UInt32 × StringObject)) :=
  match hash with
  | .zipmap entries =>
    .ok ((Keyed.find ZipmapEntry.field entries field).map fun entry =>
      (entry.timestamp, .raw entry.value))
  | .table entries =>
    (Keyed.find tableKey entries field).mapM fun entry =>
      entry.1.timestamp.map fun timestamp => (timestamp, entry.2)

/-- `hashTypeGet`. A field that is older than the argument is deleted. -/
def get (hash : RedisHash) (field : FieldArgument) :
    Except Fault (RedisHash × Option StringObject) := do
  match ← hash.entryOf field.bytes with
  | none => pure (hash, none)
  | some (timestamp, value) =>
    if timestamp < field.timestamp then pure ((hash.delete field.bytes).1, none)
    else pure (hash, some value)

/-- The value of a node made from a hash. A zipmap gives its bytes. -/
def node (hash : RedisHash) (value : StringObject) : ValueNode σ :=
  match hash with
  | .zipmap _ => .buffer value.decoded
  | .table _ => value.node

/-- A table that takes an entry. The time stamp of a field that is there is changed, which reads
both fields as strings. -/
def replace (entries : List (HashField × StringObject)) (field : HashField)
    (value : StringObject) : Except Fault (RedisHash × Bool) :=
  match Keyed.find tableKey entries field.decoded with
  | none => .ok (.table (Keyed.put tableKey entries (field, value)), false)
  | some old => do
    let _ ← field.timestamp
    let _ ← old.1.timestamp
    pure (.table (Keyed.put tableKey entries (field, value)), true)

/-- `hashTypeSet` after `hashTypeTryObjectEncoding` of the field, and whether the field was
there. -/
def set (settings : Settings) (hash : RedisHash) (field : FieldArgument)
    (value : StringObject) : Except Fault (RedisHash × Bool) :=
  match hash with
  | .zipmap entries =>
    let set := RedisHash.zipmap (Keyed.put ZipmapEntry.field entries
      { field := field.bytes, timestamp := field.timestamp, value := value.decoded })
    .ok (if settings.hashMaxZipmapEntries < set.length then set.convert else set,
      (Keyed.find ZipmapEntry.field entries field.bytes).isSome)
  | .table entries => replace entries field.encode value

/-- `hashTypeTryObjectEncoding` of a value. -/
def encodeValue (hash : RedisHash) (value : Bytes) : StringObject :=
  match hash with
  | .zipmap _ => .raw value
  | .table _ => (StringObject.raw value).tryObjectEncoding

def entries : RedisHash → List (Bytes × Bytes)
  | .zipmap entries => entries.map fun entry => (entry.field, entry.value)
  | .table entries => entries.map fun entry => (entry.1.decoded, entry.2.decoded)

end RedisHash

/-! ### Writing commands -/

/-- `hashTypeLookupWriteOrCreate`: the hash, its version as it is stored and the one to come. -/
def lookupWriteOrCreate (client : Client)
    (act : RedisHash → UInt16 → UInt16 → Except Fault (Outcome σ)) : Action σ
  | none => act (.zipmap []) client.firstVersion client.firstVersion
  | some entry =>
    typed Robj.asHash entry fun hash =>
      versioned client entry fun version => act hash entry.version version

def foundVersion (found : Option (Entry σ)) : UInt16 := (found.map Entry.version).getD 0

variable (settings : Settings) (client : Client)

def hsetCommand (field : FieldArgument) (value : Bytes) : Action σ := fun found =>
  lookupWriteOrCreate client (fun hash stored version => do
    let hash := hash.tryConversion settings [field.bytes, value]
    let set ← hash.set settings field (hash.encodeValue value)
    if set.2 = false ∧ fitsLimit set.1.length settings.hashMaxSize = false then
      pure
        { change := .store (.hash (set.1.delete field.bytes).1) stored .keep
          code := .errDataLenLimited
          answer := .nothing
          version := foundVersion found }
    else
      pure
        { change := .store (.hash set.1) version client.expireOrNot
          code := if set.2 then .okButAlreadyExist else .ok
          answer := .nothing
          version := foundVersion found }) found

/-- The number of fields is not looked at here. -/
def hsetnxCommand (field : FieldArgument) (value : Bytes) :
    Action σ := fun found =>
  lookupWriteOrCreate client (fun hash stored version => do
    let hash := hash.tryConversion settings [field.bytes, value]
    let got ← hash.get field
    match got.2 with
    | some _ =>
      pure
        { change := .store (.hash got.1) stored .keep
          code := .okButAlreadyExist
          answer := .nothing
          version := foundVersion found }
    | none =>
      let set ← got.1.set settings field (got.1.encodeValue value)
      pure
        { change := .store (.hash set.1) version client.expireOrNot
          code := .ok
          answer := .nothing
          version := foundVersion found }) found

def setPairs (settings : Settings) : List (FieldArgument × Bytes) → RedisHash →
    Except Fault RedisHash
  | [], hash => .ok hash
  | (field, value) :: rest, hash => do
    let set ← hash.set settings field (hash.encodeValue value)
    setPairs settings rest set.1

/-- The loop of a full hash: pairs are set up to the first field that is not there. It looks for
the field in a table, also when the hash is a zipmap. The pairs that are left are counted. -/
def setPresent (settings : Settings) : List (FieldArgument × Bytes) → RedisHash →
    Except Fault (RedisHash × Nat)
  | [], hash => .ok (hash, 0)
  | _ :: _, .zipmap _ => .error .wildPointer
  | (field, value) :: rest, .table entries =>
    if (Keyed.find tableKey entries field.bytes).isSome then do
      let set ← (RedisHash.table entries).set settings field
        ((RedisHash.table entries).encodeValue value)
      setPresent settings rest set.1
    else .ok (.table entries, rest.length + 1)

/-- The arguments of `hmset` in the order they stand. -/
def pairTexts (pairs : List (FieldArgument × Bytes)) : List Bytes :=
  pairs.flatMap fun pair => [pair.1.bytes, pair.2]

def hmsetCommand (pairs : List (FieldArgument × Bytes)) : Action σ := fun found =>
  lookupWriteOrCreate client (fun hash stored version => do
    let hash := hash.tryConversion settings (pairTexts pairs)
    if fitsLimit (hash.length + 1) settings.hashMaxSize then
      let set ← setPairs settings pairs hash
      pure
        { change := .store (.hash set) version client.expireOrNot
          code := .ok
          answer := .number pairs.length
          version := foundVersion found }
    else
      let set ← setPresent settings pairs hash
      pure
        { change :=
            if set.2 = pairs.length then .store (.hash set.1) stored .keep
            else .store (.hash set.1) version client.expireOrNot
          code := if 0 < set.2 then .errDataLenLimited else .ok
          answer := .number (pairs.length - set.2 : Nat)
          version := foundVersion found }) found

/-- The end of `hincrbyCommand`. -/
def storeIncrement (field : FieldArgument) (value : Int) (version found : UInt16)
    (hash : RedisHash) : Except Fault (Outcome σ) := do
  let set ← hash.set settings field (.int value)
  pure
    { change := .store (.hash set.1) version client.expireOrNot
      code := .ok
      answer := .number value
      version := found }

def hincrbyCommand (field : FieldArgument) (incr : Int) : Action σ := fun found =>
  lookupWriteOrCreate client (fun hash stored version => do
    let got ← hash.get field
    match got.2 with
    | some current =>
      match getLongLongFromObject current with
      | none =>
        pure
          { change := .store (.hash got.1) stored .keep
            code := .errIsNotInteger
            answer := .nothing
            version := foundVersion found }
      | some value =>
        storeIncrement settings client field (addInt32 value incr) version
          (foundVersion found) got.1
    | none =>
      if fitsLimit (got.1.length + 1) settings.hashMaxSize then
        storeIncrement settings client field (addInt32 0 incr) version (foundVersion found)
          got.1
      else
        pure
          { change := .store (.hash got.1) stored .keep
            code := .errDataLenLimited
            answer := .nothing
            version := foundVersion found }) found

def hdelCommand (field : Bytes) : Action σ :=
  onExisting Robj.asHash fun entry hash =>
    versioned client entry fun version =>
      let deleted := hash.delete field
      if deleted.2 then
        .ok
          { change := storeUnless (deleted.1.length = 0) (.hash deleted.1) version
              client.expireOrNot
            code := .ok
            answer := .nothing
            version := entry.version }
      else .ok (.refuse .okNotExist entry.version)

/-! ### Reading commands -/

/-- A lookup of a field may delete it. -/
def hgetCommand (field : FieldArgument) : Action σ :=
  onExisting Robj.asHash fun entry hash => do
    let got ← hash.get field
    match got.2 with
    | none =>
      pure
        { change := .store (.hash got.1) entry.version .keep
          code := .okNotExist
          answer := .nothing
          version := entry.version }
    | some value => pure (.read (.values [hash.node value]) entry.version)

def getNodes : List FieldArgument → RedisHash → Except Fault (RedisHash × List (ValueNode σ))
  | [], hash => .ok (hash, [])
  | field :: rest, hash => do
    let got ← hash.get field
    let nodes ← getNodes rest got.1
    pure (nodes.1, (got.2.elim ValueNode.null hash.node) :: nodes.2)

def hmgetCommand (fields : List FieldArgument) : Action σ :=
  onExisting Robj.asHash fun entry hash => do
    let got ← getNodes fields hash
    pure
      { change := .store (.hash got.1) entry.version .keep
        code := .ok
        answer := .values got.2
        version := entry.version }

def hexistsCommand (field : FieldArgument) : Action σ :=
  onExisting Robj.asHash fun entry hash => do
    let got ← hash.get field
    pure
      { change := .store (.hash got.1) entry.version .keep
        code := if got.2.isSome then .ok else .okNotExist
        answer := .nothing
        version := entry.version }

def filterCommand (field : FieldArgument) : Action σ
  | none => .ok (.refuse .ok 0)
  | some entry =>
    match Robj.asHash entry.value with
    | none => .ok (.refuse .errWrongTypeError 0)
    | some hash => do
      let got ← hash.get field
      pure
        { change := .store (.hash got.1) entry.version .keep
          code := .ok
          answer := .nothing
          version := 0 }

def hlenCommand : Action σ :=
  onExisting Robj.asHash fun entry hash => .ok (.read (.number hash.length) entry.version)

/-- The nodes of a whole hash, with its fields, its values or both. -/
def hashNodes (withFields withValues : Bool) : RedisHash → List (ValueNode σ)
  | .zipmap entries =>
    entries.flatMap fun entry =>
      (if withFields then [.buffer entry.field] else []) ++
        if withValues then [.buffer entry.value] else []
  | .table entries =>
    entries.flatMap fun entry =>
      (if withFields then [match entry.1 with
        | .raw bytes _ => .robj (.raw bytes)
        | .int value => .longLong value] else []) ++
        if withValues then [entry.2.node] else []

/-- `hgetallCommand`, `hkeysCommand` and `hvalsCommand`. -/
def genericHgetallCommand (withFields withValues : Bool) : Action σ :=
  onExisting Robj.asHash fun entry hash =>
    .ok (.read (.values (hashNodes withFields withValues hash)) entry.version)

end Tair.Rdb
