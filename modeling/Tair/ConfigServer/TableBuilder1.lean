/-
The first build strategy: spread the buckets evenly over all servers and keep
the copies of a bucket on different positions while that is possible.
-/

import Tair.ConfigServer.TableBuilder

namespace Tair.ConfigServer.TableBuilder1

open Tair.Library

structure Limits where
  tokensPerNodeMin : Int
  tokensPerNodeMaxCount : Int
  tokensPerNodeMinCount : Int
  masterTokensPerNodeMin : Int
  masterTokensPerNodeMaxCount : Int
  masterTokensPerNodeMinCount : Int
deriving DecidableEq, Repr

def unsetLimits : Limits := ⟨0, 0, 0, 0, 0, 0⟩

variable {shape : Shape}

/-- The comparison with the other copies of the bucket; the first clash in line
order is reported. -/
def rowStatus (table : HashTable shape) (node : ServerIdType) (line : shape.Line)
    (idx : shape.Bucket) (level : Consider) : NodeStatus :=
  ((shape.others line).findSome? (fun other =>
    if (table.get other idx).first = node.first then some .sameNode
    else if level.rank < Consider.base.rank ∧ (table.get other idx).second = node.second then
      some .samePos
    else none)).getD .nodeOK

def isThisNodeOK (builder : TableBuilder Limits) (node : ServerIdType) (line : shape.Line)
    (idx : shape.Bucket) (table : HashTable shape) (level : Consider) (nodeInUse : Bool) :
    NodeStatus :=
  builder.nodeStatus node line level nodeInUse builder.derived.tokensPerNodeMin
    builder.derived.tokensPerNodeMaxCount (rowStatus table node line idx level)

theorem rowStatus_nodeOK {table : HashTable shape} {node : ServerIdType} {line : shape.Line}
    {idx : shape.Bucket} {level : Consider} :
    rowStatus table node line idx level = .nodeOK ↔
      ∀ other, other ≠ line → (table.get other idx).first ≠ node.first ∧
        (level.rank < Consider.base.rank → (table.get other idx).second ≠ node.second) := by
  unfold rowStatus
  cases clash : (shape.others line).findSome? (fun other =>
      if (table.get other idx).first = node.first then some NodeStatus.sameNode
      else if level.rank < Consider.base.rank ∧ (table.get other idx).second = node.second then
        some .samePos
      else none) with
  | none =>
    rw [List.findSome?_eq_none_iff] at clash
    refine ⟨fun _ other apart => ?_, fun _ => rfl⟩
    have free := clash other (Shape.mem_others.mpr apart)
    split_ifs at free with sameFirst samePosition
    exact ⟨sameFirst, fun strict same => samePosition ⟨strict, same⟩⟩
  | some status =>
    obtain ⟨other, member, found⟩ := List.exists_of_findSome?_eq_some clash
    have apart := Shape.mem_others.mp member
    split_ifs at found with sameFirst samePosition
    · cases found
      exact ⟨fun wrong => (by cases wrong), fun free => absurd sameFirst (free other apart).1⟩
    · cases found
      exact ⟨fun wrong => (by cases wrong),
        fun free => absurd samePosition.2 ((free other apart).2 samePosition.1)⟩

def preNodeCountMin (counts : TokenCount) : Int :=
  let used := counts.toList.filter (fun entry => entry.2 ≠ 0)
  if used.length > 0 then (used.map Prod.snd).sum.tdiv used.length else 0

/-- A server with at most the mean gets the small quota while there are any
left, a server above the mean gets the large one. -/
def takesMore (counts : TokenCount) (tokensMinCount tokensMaxCount : Int)
    (node : ServerIdType) (i maxS : Int) : Bool :=
  if counts.getD node 0 ≤ preNodeCountMin counts then !decide (i - maxS < tokensMinCount)
  else decide (maxS < tokensMaxCount)

def caculateCapable (shape : Shape) (builder : TableBuilder Limits) : Capable Limits :=
  let servers : Int := builder.availableServer.size
  let total : Int := shape.bucketCount * shape.copyCount
  let tokensMin := total.tdiv servers
  let maxCount := total - tokensMin * servers
  let masterMin := Int.tdiv shape.bucketCount servers
  let masterMaxCount := shape.bucketCount - masterMin * servers
  { serverCapable :=
      assignCapable (takesMore builder.tokens.countInNode (servers - maxCount) maxCount) tokensMin
        builder.availableServer.toList 0 0 ∅
    masterServerCapable :=
      assignCapable
        (takesMore builder.mtokens.countInNode (servers - masterMaxCount) masterMaxCount) masterMin
        builder.availableServer.toList 0 0 ∅
    derived :=
      { tokensPerNodeMin := tokensMin
        tokensPerNodeMaxCount := maxCount
        tokensPerNodeMinCount := servers - maxCount
        masterTokensPerNodeMin := masterMin
        masterTokensPerNodeMaxCount := masterMaxCount
        masterTokensPerNodeMinCount := servers - masterMaxCount } }

def strategy (shape : Shape) : Strategy shape Limits where
  isThisNodeOK := isThisNodeOK
  caculateCapable := caculateCapable shape
  getTokensPerNode builder _ := builder.derived.tokensPerNodeMin

end Tair.ConfigServer.TableBuilder1
