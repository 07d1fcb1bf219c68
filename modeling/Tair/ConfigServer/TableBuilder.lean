/-
The table builder of the config server: the part the two strategies share.

A hash table has `copyCount` lines of `bucketCount` entries; line 0 holds the masters. The builder
counts the buckets of every server, indexes the servers by those counts, and moves entries until
the strategy accepts every one. What differs between the strategies are the fields of `Strategy`.

The counters are `int` in the source. A table comes from a file whose size is a `uint32_t`, so
none comes near overflow. An `operator[]` on an absent key reads 0, and the entry it leaves behind
is cleared before anything iterates over the map.
-/

import Tair.Library.Grid
import Tair.Library.Scan
import Tair.Library.Shelf

namespace Tair.ConfigServer

open Std Tair.Library
open Tair.Library.ShelfIndex (put take)

/-! ### Server ids and tables -/

/-- `server_id_type`: the address of a server and its position, which is the
address under the position mask cut to 32 bits. -/
structure ServerIdType where
  first : UInt64
  second : UInt32
deriving DecidableEq, Repr

namespace ServerIdType

instance : Ord ServerIdType :=
  ⟨compareLex (compareOn first) (compareOn second)⟩

instance : TransOrd ServerIdType :=
  inferInstanceAs (TransCmp (compareLex (compareOn first) (compareOn second)))

instance : LawfulEqOrd ServerIdType where
  eq_of_compare {left right} equal := by
    change (compareOn first left right).then (compareOn second left right) = .eq at equal
    rw [Ordering.then_eq_eq] at equal
    rcases left with ⟨leftFirst, leftSecond⟩
    rcases right with ⟨rightFirst, rightSecond⟩
    simpa [compareOn] using equal

end ServerIdType

def invalidFlag : UInt64 := 0

/-- The pair stored for an address, as `make_pair` builds it. -/
def nodeOf (posMask serverId : UInt64) : ServerIdType :=
  ⟨serverId, (serverId &&& posMask).toUInt32⟩

structure Shape where
  bucketCount : Nat
  copyCount : Nat
  bucketPositive : 0 < bucketCount
  copyPositive : 0 < copyCount

namespace Shape

variable (shape : Shape)

abbrev Line := Fin shape.copyCount

abbrev Bucket := Fin shape.bucketCount

def master : shape.Line := ⟨0, shape.copyPositive⟩

def buckets : List shape.Bucket := List.finRange shape.bucketCount

def lines : List shape.Line := List.finRange shape.copyCount

def others (line : shape.Line) : List shape.Line :=
  shape.lines.filter (fun other => other ≠ line)

def slaves : List shape.Line := shape.others shape.master

/-- The lines the main loop visits in a round that starts at `lineNumOut`. The
round of line 0 skips every other line. -/
def visited (lineNumOut : Nat) : List shape.Line :=
  shape.lines.filter (fun line =>
    lineNumOut ≤ line.val ∧ ¬(lineNumOut = 0 ∧ line.val ≠ 0))

variable {shape : Shape}

theorem mem_buckets (idx : shape.Bucket) : idx ∈ shape.buckets := List.mem_finRange idx

theorem buckets_nodup (shape : Shape) : shape.buckets.Nodup := List.nodup_finRange _

theorem mem_others {line other : shape.Line} : other ∈ shape.others line ↔ other ≠ line := by
  simp [others, lines]

theorem mem_slaves {line : shape.Line} : line ∈ shape.slaves ↔ line ≠ shape.master := mem_others

private theorem finRange_filter_zero {count : Nat} (pos : 0 < count) :
    (List.finRange count).filter (fun line => decide (line.val = 0)) = [⟨0, pos⟩] := by
  cases count with
  | zero => exact absurd pos (Nat.lt_irrefl 0)
  | succ rest =>
    rw [List.finRange_succ, List.filter_cons_of_pos (by simp), List.filter_map]
    simp [Function.comp_def]

theorem visited_zero (shape : Shape) : shape.visited 0 = [shape.master] := by
  unfold visited master
  rw [← finRange_filter_zero shape.copyPositive]
  exact List.filter_congr (fun line _ => by simp)

theorem visited_one (shape : Shape) : shape.visited 1 = shape.slaves := by
  refine List.filter_congr (fun line _ => ?_)
  simp only [Fin.ext_iff, master, ne_eq, decide_eq_decide]
  omega

end Shape

abbrev HashTable (shape : Shape) := Grid shape.copyCount shape.bucketCount ServerIdType

/-- A `uint64_t` table of `copy_count * bucket_count` entries, as it is stored
and published. -/
abbrev FlatTable (shape : Shape) := Grid shape.copyCount shape.bucketCount UInt64

abbrev ServerList := TreeSet ServerIdType

abbrev TokenCount := TreeMap ServerIdType Int

inductive Consider where
  | all
  | pos
  | base
  | force
deriving DecidableEq, Repr

def Consider.rank : Consider → Nat
  | .all => 0
  | .pos => 1
  | .base => 2
  | .force => 3

def Consider.levels : List Consider := [.all, .pos, .base, .force]

inductive NodeStatus where
  | nodeOK
  | invalidNode
  | toomanyMaster
  | toomanyBucket
  | sameNode
  | samePos
deriving DecidableEq, Repr

inductive BuildCode where
  | buildError
  | buildOK
  | buildQuick
deriving DecidableEq, Repr

/-! ### Counters and their indexes -/

/-- The four maps that `change_tokens_count_in_node` is handed together: the
count of every server, the servers by count, the servers by count minus quota,
and the quotas. The builder has one such set for all entries and one for the
masters. -/
structure TokenLedger where
  countInNode : TokenCount
  countServer : ShelfIndex ServerIdType
  candidateNode : ShelfIndex ServerIdType
  serverCapable : TokenCount

namespace TokenLedger

def empty : TokenLedger := ⟨∅, ∅, ∅, ∅⟩

def count (ledger : TokenLedger) (node : ServerIdType) : Int :=
  ledger.countInNode.getD node 0

def capable (ledger : TokenLedger) (node : ServerIdType) : Int :=
  ledger.serverCapable.getD node 0

def changeTokensCountInNode (ledger : TokenLedger) (node : ServerIdType)
    (minus : Bool) : TokenLedger :=
  let before := ledger.count node
  let after := if minus then before - 1 else before + 1
  { countInNode := ledger.countInNode.insert node after
    countServer := put (take ledger.countServer before node) after node
    candidateNode :=
      put (take ledger.candidateNode (before - ledger.capable node) node)
        (after - ledger.capable node) node
    serverCapable := ledger.serverCapable }

end TokenLedger

def updateNodeCount (collector : TokenCount) (node : ServerIdType) : TokenCount :=
  if collector.contains node then
    collector.insert node (collector.getD node 0 + 1)
  else collector

def buildIndex (collector : TokenCount) : ShelfIndex ServerIdType :=
  collector.toList.foldl (fun indexer entry => put indexer entry.2 entry.1) ∅

def initCandidate (capable : TokenCount) (countServer : ShelfIndex ServerIdType) :
    ShelfIndex ServerIdType :=
  countServer.toList.foldl (fun candidates entry =>
    entry.2.toList.foldl (fun candidates node =>
      put candidates (entry.1 - capable.getD node 0) node) candidates) ∅

/-- The loop of `caculate_capable` over the servers: `more` says whether the
`i`-th server gets one bucket above `tokensMin` when `maxS` servers before it did. -/
def assignCapable (more : ServerIdType → (i maxS : Int) → Bool) (tokensMin : Int) :
    List ServerIdType → (i maxS : Int) → TokenCount → TokenCount
  | [], _, _, capable => capable
  | node :: rest, i, maxS, capable =>
    if more node i maxS then
      assignCapable more tokensMin rest (i + 1) (maxS + 1) (capable.insert node (tokensMin + 1))
    else assignCapable more tokensMin rest (i + 1) maxS (capable.insert node tokensMin)

/-! ### The builder object -/

/-- `derived` holds the members a strategy adds. -/
structure TableBuilder (δ : Type) where
  tokens : TokenLedger
  mtokens : TokenLedger
  tokensCountInNodeNow : TokenCount
  maxCountNow : Int
  availableServer : ServerList
  posMask : UInt64
  derived : δ

structure Work (shape : Shape) (δ : Type) where
  builder : TableBuilder δ
  table : HashTable shape

/-- What `caculate_capable` assigns: the two maps of quotas and the strategy's
own members. -/
structure Capable (δ : Type) where
  serverCapable : TokenCount
  masterServerCapable : TokenCount
  derived : δ

structure Strategy (shape : Shape) (δ : Type) where
  isThisNodeOK : TableBuilder δ → ServerIdType → shape.Line → shape.Bucket →
    HashTable shape → Consider → (nodeInUse : Bool) → NodeStatus
  caculateCapable : TableBuilder δ → Capable δ
  getTokensPerNode : TableBuilder δ → ServerIdType → Int

/-- The servers a group hands to its builder. An address that cannot be parsed is
0 and is dropped, and the quotas divide by the number of servers. -/
structure UpNodes where
  serverIds : List UInt64
  real : ∀ serverId ∈ serverIds, serverId ≠ invalidFlag
  nonempty : serverIds ≠ []

namespace TableBuilder

variable {shape : Shape} {δ : Type}

def tairPosMask : UInt64 := 0xffff

/-- The constructor. It sets neither `max_count_now` nor the members of a strategy. -/
def construct (maxCountNow : Int) (derived : δ) : TableBuilder δ :=
  ⟨.empty, .empty, ∅, maxCountNow, ∅, tairPosMask, derived⟩

variable (builder : TableBuilder δ)

def initTokenCount : TokenCount :=
  builder.availableServer.toList.foldl (fun collector node => collector.insert node 0) ∅

section

variable (node : ServerIdType)

def isNodeAvailble : Bool :=
  if node.first = invalidFlag then false else builder.availableServer.contains node

/-- The part of `is_this_node_OK` that looks at the counters, which the two
strategies share up to the pair of limits they put in. -/
def tokenStatus (line : shape.Line) (level : Consider)
    (turn tokensPerNodeMin tokensPerNodeMaxCount : Int) : Option NodeStatus :=
  if line = shape.master then
    if builder.mtokens.count node ≥ builder.mtokens.capable node + turn then some .toomanyMaster
    else none
  else if level = .all then
    if builder.tokens.count node ≥ builder.tokens.capable node + turn then some .toomanyBucket
    else none
  else if level ≠ .force ∧
      builder.tokensCountInNodeNow.getD node 0 ≥ tokensPerNodeMin + turn ∧
      builder.maxCountNow ≥ tokensPerNodeMaxCount + turn then some .toomanyBucket
  else none

theorem tokenStatus_master (level : Consider) (turn least limit : Int) :
    builder.tokenStatus node shape.master level turn least limit = none ↔
      builder.mtokens.count node < builder.mtokens.capable node + turn := by
  unfold tokenStatus
  rw [if_pos rfl]
  split_ifs with full
  · simp [Int.not_lt.mpr full]
  · simp [Int.not_le.mp full]

theorem tokenStatus_force {line : shape.Line} (slave : line ≠ shape.master)
    (turn least limit : Int) : builder.tokenStatus node line .force turn least limit = none := by
  simp [tokenStatus, slave]

/-- The frame of `is_this_node_OK`. The strategies differ in the limits and in
`rowStatus`, the comparison with the other copies of the bucket. -/
def nodeStatus (line : shape.Line) (level : Consider) (nodeInUse : Bool)
    (tokensPerNodeMin tokensPerNodeMaxCount : Int) (rowStatus : NodeStatus) : NodeStatus :=
  if builder.isNodeAvailble node = false then .invalidNode
  else
    match builder.tokenStatus node line level (if nodeInUse then 1 else 0)
        tokensPerNodeMin tokensPerNodeMaxCount with
    | some tooMany => tooMany
    | none => if line = shape.master ∧ level = .base then .nodeOK else rowStatus

end

theorem nodeStatus_nodeOK {builder : TableBuilder δ} {node : ServerIdType} {line : shape.Line}
    {level : Consider} {nodeInUse : Bool} {least limit : Int} {rowStatus : NodeStatus} :
    builder.nodeStatus node line level nodeInUse least limit rowStatus = .nodeOK ↔
      builder.isNodeAvailble node = true ∧
        builder.tokenStatus node line level (if nodeInUse then 1 else 0) least limit = none ∧
        ((line = shape.master ∧ level = .base) ∨ rowStatus = .nodeOK) := by
  unfold nodeStatus
  cases alive : builder.isNodeAvailble node with
  | false => simp
  | true =>
    cases status : builder.tokenStatus node line level (if nodeInUse then 1 else 0)
        least limit with
    | some tooMany =>
      have bad : tooMany ≠ .nodeOK := by
        rintro rfl
        unfold tokenStatus at status
        split_ifs at status <;> cases status
      simp [bad]
    | none =>
      by_cases easy : line = shape.master ∧ level = .base
      · simp [easy]
      · simp [easy]

def setPosMask (posMask : UInt64) : TableBuilder δ :=
  { builder with posMask := posMask }

/-- The addresses come in the order of the node pointers, so in any order. -/
def setAvailableServer (serverIds : List UInt64) : TableBuilder δ :=
  { builder with
    availableServer :=
      serverIds.foldl (fun servers serverId => servers.insert (nodeOf builder.posMask serverId)) ∅ }

def loadHashTable (table : FlatTable shape) : HashTable shape :=
  table.map (nodeOf builder.posMask)

end TableBuilder

def writeHashTable {shape : Shape} (table : HashTable shape) : FlatTable shape :=
  table.map ServerIdType.first

namespace Work

variable {shape : Shape} {δ : Type}

variable (work : Work shape δ)

def available (node : ServerIdType) : Bool :=
  work.builder.isNodeAvailble node

def entry (line : shape.Line) (idx : shape.Bucket) : ServerIdType :=
  work.table.get line idx

/-- Count a server up or down in the ledger of all entries, and in the ledger
of masters when the entry is on line 0. -/
def changeTokens (line : shape.Line) (node : ServerIdType) (minus : Bool) : Work shape δ :=
  { work with
    builder := { work.builder with
      tokens := work.builder.tokens.changeTokensCountInNode node minus
      mtokens :=
        if line = shape.master then work.builder.mtokens.changeTokensCountInNode node minus
        else work.builder.mtokens } }

/-- Only the address of the entry is cleared; the position stays. -/
def invaliadNode (line : shape.Line) (idx : shape.Bucket) : Work shape δ :=
  let node := work.entry line idx
  let counted := if work.available node then work.changeTokens line node true else work
  { counted with table := work.table.set line idx { node with first := invalidFlag } }

def updateNode (line : shape.Line) (idx : shape.Bucket) (suitableNode : ServerIdType) :
    Work shape δ :=
  let counted :=
    if work.available suitableNode then work.changeTokens line suitableNode false else work
  { counted with table := work.table.set line idx suitableNode }

/-- One turn of the loop over the slaves: the line chosen so far and the count
of masters of its server. -/
def considerLine (idx : shape.Bucket) (chosen : Option shape.Line × Int) (nextLine : shape.Line) :
    Option shape.Line × Int :=
  if work.available (work.entry nextLine idx) then
    if chosen.2 = -1 ∨ chosen.2 > work.builder.mtokens.count (work.entry nextLine idx) then
      (some nextLine, work.builder.mtokens.count (work.entry nextLine idx))
    else chosen
  else chosen

/-- The slave with the fewest masters. The source starts with `-1` for the line
as well as for the count. -/
def chooseLine (idx : shape.Bucket) : Option shape.Line × Int :=
  shape.slaves.foldl (work.considerLine idx) (none, -1)

/-- Exchange the master of a bucket with the slave on `line`. A master that is
not available is not put back: its place keeps the position of the new master. -/
def swapMaster (idx : shape.Bucket) (line : shape.Line) : Work shape δ :=
  let orgNode := work.entry shape.master idx
  let newMaster := work.entry line idx
  let promoted := work.builder.mtokens.changeTokensCountInNode newMaster false
  { builder := { work.builder with
      tokensCountInNodeNow :=
        work.builder.tokensCountInNodeNow.insert newMaster
          (work.builder.tokensCountInNodeNow.getD newMaster 0 + 1)
      mtokens :=
        if work.available orgNode then promoted.changeTokensCountInNode orgNode true
        else promoted }
    table :=
      (work.table.set shape.master idx newMaster).set line idx
        (if work.available orgNode then orgNode else { newMaster with first := invalidFlag }) }

/-- `none` is the `false` of the source, which leaves everything as it was. -/
def changeMasterNode (idx : shape.Bucket) (forceFlag : Bool) : Option (Work shape δ) :=
  match work.chooseLine idx with
  | (none, _) => none
  | (some line, minNodeCount) =>
    if minNodeCount = -1 then none
    else if forceFlag = false ∧
        work.builder.mtokens.count (work.entry line idx) ≥
          work.builder.mtokens.capable (work.entry line idx) then none
    else some (work.swapMaster idx line)

/-- The part of `rebuild_table` that counts an accepted entry. -/
def accountNode (strategy : Strategy shape δ) (work : Work shape δ) (node : ServerIdType) :
    Work shape δ :=
  let now := work.builder.tokensCountInNodeNow.getD node 0 + 1
  { work with
    builder := { work.builder with
      tokensCountInNodeNow := work.builder.tokensCountInNodeNow.insert node now
      maxCountNow :=
        if now = strategy.getTokensPerNode work.builder node + 1 then
          work.builder.maxCountNow + 1
        else work.builder.maxCountNow } }

end Work

/-! ### Choosing a server for an entry -/

/-- The walk over one shelf keeps the last server that passes, or stops at the
server that held the entry before. -/
def scanServers (passes : ServerIdType → Bool) (originalNode : ServerIdType) :
    List ServerIdType → ServerIdType → ServerIdType
  | [], suitable => suitable
  | server :: rest, suitable =>
    if passes server then
      if server.first = originalNode.first then server
      else scanServers passes originalNode rest server
    else scanServers passes originalNode rest suitable

/-- The walk over the shelves at one level. Below `base` each shelf costs one
unit of `budget`; an empty shelf costs as much as any other. -/
def scanShelves (level : Consider) (passes : ServerIdType → Bool) (originalNode : ServerIdType) :
    List (Int × ServerList) → Nat → ServerIdType → ServerIdType
  | [], _, suitable => suitable
  | entry :: rest, used, suitable =>
    if used < level.rank + 1 ∧ suitable.first = invalidFlag then
      scanShelves level passes originalNode rest
        (if level.rank < Consider.base.rank then used + 1 else used)
        (scanServers passes originalNode entry.2.toList suitable)
    else suitable

def noNode : ServerIdType := ⟨invalidFlag, 0⟩

namespace Work

variable {shape : Shape} {δ : Type}

variable (work : Work shape δ)

def ledgerOf (line : shape.Line) : TokenLedger :=
  if line = shape.master then work.builder.mtokens else work.builder.tokens

variable (strategy : Strategy shape δ)

def passes (work : Work shape δ) (line : shape.Line) (idx : shape.Bucket) (level : Consider)
    (node : ServerIdType) : Bool :=
  strategy.isThisNodeOK work.builder node line idx work.table level false = .nodeOK

def searchLevel (work : Work shape δ) (line : shape.Line) (idx : shape.Bucket)
    (originalNode suitable : ServerIdType) (level : Consider) : ServerIdType :=
  if suitable.first = invalidFlag then
    scanShelves level (work.passes strategy line idx level) originalNode
      (work.ledgerOf line).candidateNode.toList 0 suitable
  else suitable

def getSuitableNode (work : Work shape δ) (line : shape.Line) (idx : shape.Bucket)
    (originalNode : ServerIdType) : ServerIdType :=
  Consider.levels.foldl (work.searchLevel strategy line idx originalNode) noNode

/-! ### The two rounds of `rebuild_table` -/

/-- The replacement of a rejected entry by a server found in the index; the
`error` carries the state in which the builder gives up. -/
def replaceNode (work : Work shape δ) (idx : shape.Bucket) (line : shape.Line) :
    Except (Work shape δ) (Work shape δ) :=
  let oldNode := work.entry line idx
  let cleared := work.invaliadNode line idx
  let suitable := cleared.getSuitableNode strategy line idx oldNode
  if suitable.first = invalidFlag then .error cleared
  else .ok ((cleared.updateNode line idx suitable).accountNode strategy suitable)

def checkNode (work : Work shape δ) (consider : Consider) (idx : shape.Bucket) (line : shape.Line) :
    Except (Work shape δ) (Work shape δ) :=
  let node := work.entry line idx
  if strategy.isThisNodeOK work.builder node line idx work.table consider true = .nodeOK then
    .ok (work.accountNode strategy node)
  else if line = shape.master then
    match work.changeMasterNode idx false with
    | some changed => .ok changed
    | none => work.replaceNode strategy idx line
  else work.replaceNode strategy idx line

def checkBucket (lineNumOut : Nat) (work : Work shape δ) (idx : shape.Bucket) :
    Except (Work shape δ) (Work shape δ) :=
  (shape.visited lineNumOut).foldlM
    (fun work line => work.checkNode strategy (if lineNumOut = 0 then .base else .all) idx line) work

def checkRound (work : Work shape δ) (lineNumOut : Nat) : Except (Work shape δ) (Work shape δ) :=
  shape.buckets.foldlM (checkBucket strategy lineNumOut) work

/-- The outer loop runs over the first two lines of the table. -/
def checkTable (work : Work shape δ) : Except (Work shape δ) (Work shape δ) :=
  (List.range (min 2 shape.copyCount)).foldlM (checkRound strategy) work

/-! ### The quick table -/

def quickMaster (idx : shape.Bucket) : Except (Work shape δ) (Work shape δ) :=
  if work.available (work.entry shape.master idx) then .ok work
  else
    match work.changeMasterNode idx true with
    | some changed => .ok changed
    | none => .error work

def sweepNode (builder : TableBuilder δ) (line : shape.Line) (table : HashTable shape)
    (idx : shape.Bucket) : HashTable shape :=
  if builder.isNodeAvailble (table.get line idx) then table else table.set line idx noNode

def sweepSlaves : Work shape δ :=
  { work with
    table := shape.slaves.foldl (fun table line =>
      shape.buckets.foldl (sweepNode work.builder line) table) work.table }

/-- `error` is the `false` of the source. -/
def buildQuickTable : Except (Work shape δ) (Work shape δ) :=
  match shape.buckets.foldlM quickMaster work with
  | .ok mastered => .ok mastered.sweepSlaves
  | .error stopped => .error stopped

end Work

/-! ### `rebuild_table` -/

namespace TableBuilder

variable {shape : Shape} {δ : Type}

def countLine (table : HashTable shape) (line : shape.Line) (collector : TokenCount) :
    TokenCount :=
  shape.buckets.foldl (fun collector idx => updateNodeCount collector (table.get line idx)) collector

def countTable (table : HashTable shape) (collector : TokenCount) : TokenCount :=
  shape.lines.foldl (fun collector line => countLine table line collector) collector

/-- Everything `rebuild_table` does before it looks at the first entry. -/
def prepare (strategy : Strategy shape δ) (builder : TableBuilder δ) (source : HashTable shape) :
    TableBuilder δ :=
  let tokens := countTable source builder.initTokenCount
  let mtokens := countLine source shape.master builder.initTokenCount
  let counted := { builder with
    tokens := { builder.tokens with countInNode := tokens, countServer := buildIndex tokens }
    mtokens := { builder.mtokens with countInNode := mtokens, countServer := buildIndex mtokens }
    tokensCountInNodeNow := builder.initTokenCount
    maxCountNow := 0 }
  let capable := strategy.caculateCapable counted
  { counted with
    tokens := { counted.tokens with
      candidateNode := initCandidate capable.serverCapable counted.tokens.countServer
      serverCapable := capable.serverCapable }
    mtokens := { counted.mtokens with
      candidateNode := initCandidate capable.masterServerCapable counted.mtokens.countServer
      serverCapable := capable.masterServerCapable }
    derived := capable.derived }

def needBuildQuickTable (builder : TableBuilder δ) (source : HashTable shape) : Bool :=
  shape.buckets.any (fun idx => !builder.initTokenCount.contains (source.get shape.master idx))

structure Rebuilt (shape : Shape) (δ : Type) where
  code : BuildCode
  work : Work shape δ

def Rebuilt.ofPass (success : BuildCode) :
    Except (Work shape δ) (Work shape δ) → Rebuilt shape δ
  | .ok work => ⟨success, work⟩
  | .error work => ⟨.buildError, work⟩

theorem Rebuilt.ofPass_work (success : BuildCode) (pass : Except (Work shape δ) (Work shape δ)) :
    (ofPass success pass).work = Scan.reached pass := by
  cases pass with
  | ok work => rfl
  | error work => rfl

def rebuildTable (strategy : Strategy shape δ) (builder : TableBuilder δ)
    (source : HashTable shape) (noQuickTable : Bool) : Rebuilt shape δ :=
  let work : Work shape δ := ⟨builder.prepare strategy source, source⟩
  if builder.needBuildQuickTable source ∧ noQuickTable = false then
    .ofPass .buildQuick work.buildQuickTable
  else if builder.availableServer.size < shape.copyCount then ⟨.buildError, work⟩
  else .ofPass .buildOK (work.checkTable strategy)

end TableBuilder

end Tair.ConfigServer
