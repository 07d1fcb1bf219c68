/-
The commands on strings.
-/

import Tair.Rdb.Outcome

namespace Tair.Rdb

variable {σ : Type}

/-! ### Numbers in texts -/

def isSpace (byte : UInt8) : Bool := byte = 32 ∨ (9 ≤ byte ∧ byte ≤ 13)

def isDigit (byte : UInt8) : Bool := 48 ≤ byte ∧ byte ≤ 57

def splitSign : Bytes → Bool × Bytes
  | [] => (false, [])
  | first :: rest => if first = 45 then (true, rest) else
      if first = 43 then (false, rest) else (false, first :: rest)

/-- `strtoll` of the whole text. The empty text is zero, a zero byte is no digit, and a number
out of range is refused. -/
def strtoll (text : Bytes) : Option Int :=
  if text = [] then some 0
  else
    let body := splitSign (text.dropWhile isSpace)
    let value : Int := if body.1 then -digitsValue body.2 else digitsValue body.2
    if body.2 ≠ [] ∧ body.2.all isDigit ∧ -2 ^ 63 ≤ value ∧ value < 2 ^ 63 then some value
    else none

def getLongLongFromObject : StringObject → Option Int
  | .raw bytes => strtoll bytes
  | .int value => some value

/-- The sum of two numbers as an `int32_t`. -/
def addInt32 (value incr : Int) : Int := (value + incr).bmod (2 ^ 32)

/-! ### The commands -/

variable (client : Client)

/-- The expiry that `setGenericCommand` leaves. -/
def setExpiry : Option Int → ExpireChange
  | some seconds => .set seconds
  | none => if client.expiretime = 0 then .remove else .keep

/-- `setCommand`, `setnxCommand`, `setexCommand` and `setnxexCommand`. -/
def setGenericCommand (nx : Bool) (value : Bytes) (expire : Option Int) :
    Action σ
  | none =>
    .ok
      { change := .store (.string (StringObject.raw value).tryObjectEncoding)
          client.firstVersion (setExpiry client expire)
        code := .ok
        answer := .nothing
        version := 0 }
  | some entry =>
    typed Robj.asString entry fun _ =>
      versioned client entry fun version =>
        if nx then .ok (.refuse .okButAlreadyExist entry.version)
        else
          .ok
            { change := .store (.string (StringObject.raw value).tryObjectEncoding) version
                (setExpiry client expire)
              code := .ok
              answer := .nothing
              version := entry.version }

def getCommand : Action σ :=
  onExisting Robj.asString fun entry value =>
    .ok (.read (.values [value.node]) entry.version)

/-- The old value is answered when there was one. -/
def getsetCommand (value : Bytes) : Action σ
  | none =>
    .ok
      { change := .store (.string (StringObject.raw value).tryObjectEncoding)
          client.firstVersion client.expireOrNot
        code := .ok
        answer := .nothing
        version := 0 }
  | some entry =>
    typed Robj.asString entry fun old =>
      versioned client entry fun version =>
        .ok
          { change := .store (.string (StringObject.raw value).tryObjectEncoding) version
              client.expireOrNot
            code := .ok
            answer := .values [old.node]
            version := entry.version }

def storeNumber (version : UInt16) (value : Int) (found : UInt16) : Outcome σ :=
  { change := .store (.string (.int value)) version client.expireOrNot
    code := .ok
    answer := .number value
    version := found }

/-- `incrbyCommand`. -/
def incrDecrCommand (initValue incr : Int) : Action σ
  | none => .ok (storeNumber client client.firstVersion (addInt32 initValue incr) 0)
  | some entry =>
    typed Robj.asString entry fun old =>
      versioned client entry fun version =>
        match getLongLongFromObject old with
        | none => .ok (.refuse .errIsNotInteger entry.version)
        | some value => .ok (storeNumber client version (addInt32 value incr) entry.version)

end Tair.Rdb
