/-
The filters of an area: a list of patterns with the times at which they were added. A removal walks
the list with a second pointer behind the first, and both start at the head, so that a node right
behind the head takes the head with it. An iterator stops for ever at a node it does not want.
-/

import Tair.Common.Fault
import Tair.Library.Keyed
import Tair.Library.Machine

namespace Tair.Rdb

open Tair.Library

/-- The type and the bytes that a node is known by. -/
abbrev Pattern := Int8 × List UInt8

structure FilterNode where
  type : Int8
  timestamp : UInt32
  buff : List UInt8
  deriving DecidableEq, Repr

/-- The nodes from `head` on. -/
structure FilterList where
  size : Int
  nodes : List FilterNode
  deriving DecidableEq, Repr

namespace FilterNode

variable (node : FilterNode)

def pattern : Pattern := (node.type, node.buff)

def entry : Pattern × UInt32 := (node.pattern, node.timestamp)

/-- Whether `_filter_node_cmp` returns 0 for a node. -/
def same (type : Int8) (buff : List UInt8) : Bool :=
  if buff.length = 0 then false
  else if node.type ≠ type ∨ node.buff.length ≠ buff.length then false
  else node.buff = buff

theorem same_iff (type : Int8) {buff : List UInt8} (nonempty : buff ≠ []) :
    node.same type buff = true ↔ node.pattern = (type, buff) := by
  unfold same pattern
  rw [if_neg (fun none => nonempty (List.length_eq_zero_iff.mp none)), Prod.mk.injEq]
  split_ifs with ne
  · refine iff_of_false not_false fun both => ?_
    rcases ne with type | length
    · exact type both.1
    · exact length (congrArg List.length both.2)
  · rw [not_or, not_not] at ne
    simp [ne.1]

end FilterNode

namespace FilterList

/-- `create_filter_list`. -/
def empty : FilterList := ⟨0, []⟩

variable (list : FilterList)

/-- The loop of all three functions: the nodes passed, and those from `iter` on. -/
def walk (type : Int8) (buff : List UInt8) : List FilterNode × List FilterNode :=
  list.nodes.span fun node => !node.same type buff

/-- The function also returns whether there is a node for the pattern. -/
def addFilterNode (type : Int8) (buff : List UInt8) (now : UInt32) : FilterList × Bool :=
  match list.walk type buff with
  | (passed, node :: rest) =>
    ({ list with nodes := passed ++ { node with timestamp := now } :: rest }, true)
  | (_, []) =>
    if buff = [] then (list, false) else (⟨list.size + 1, ⟨type, now, buff⟩ :: list.nodes⟩, true)

/-- `last` is the node passed last, or `iter` if there is none. So it is the head when at most one
node was passed. -/
def removeFilterNode (type : Int8) (buff : List UInt8) : FilterList × Bool :=
  match list.walk type buff with
  | (passed, _ :: rest) =>
    (⟨list.size - 1, if passed.length ≤ 1 then rest else passed ++ rest⟩, true)
  | (_, []) => (list, true)

def searchFilterNode (type : Int8) (buff : List UInt8) : UInt32 :=
  match (list.walk type buff).2 with
  | node :: _ => node.timestamp
  | [] => 0

variable {list : FilterList} {type : Int8} {buff : List UInt8}

theorem walk_cases (list : FilterList) (type : Int8) (nonempty : buff ≠ []) :
    (∃ passed node rest, list.walk type buff = (passed, node :: rest) ∧
      list.nodes = passed ++ node :: rest ∧ node.pattern = (type, buff) ∧
      (type, buff) ∉ passed.map FilterNode.pattern) ∨
    ∃ passed, list.walk type buff = (passed, []) ∧
      (type, buff) ∉ list.nodes.map FilterNode.pattern := by
  have whole := List.takeWhile_append_dropWhile
    (p := fun node : FilterNode => !node.same type buff) (l := list.nodes)
  have passes : (type, buff) ∉ (list.nodes.takeWhile fun node => !node.same type buff).map
      FilterNode.pattern := by
    intro member
    obtain ⟨node, passed, isPattern⟩ := List.mem_map.mp member
    have other := List.mem_takeWhile_imp passed
    rw [(node.same_iff type nonempty).mpr isPattern] at other
    cases other
  unfold walk
  rw [List.span_eq_takeWhile_dropWhile]
  cases left : list.nodes.dropWhile (fun node => !node.same type buff) with
  | nil =>
    rw [left, List.append_nil] at whole
    exact .inr ⟨_, rfl, whole ▸ passes⟩
  | cons node rest =>
    have found := List.head?_dropWhile_not (fun node : FilterNode => !node.same type buff) list.nodes
    rw [left] at found whole
    refine .inl ⟨_, node, rest, rfl, whole.symm, ?_, passes⟩
    exact (node.same_iff type nonempty).mp (by simpa using found)

/-- The list holds what the map holds, each pattern once, and counts it. -/
structure Agrees (list : FilterList) (times : Finmap fun _ : Pattern => UInt32) : Prop where
  models : Keyed.Models times (list.nodes.map FilterNode.entry)
  nodup : (list.nodes.map FilterNode.pattern).Nodup
  size : list.size = list.nodes.length

theorem keys_entry (nodes : List FilterNode) :
    (nodes.map FilterNode.entry).map Prod.fst = nodes.map FilterNode.pattern :=
  List.map_map

namespace Agrees

variable {times : Finmap fun _ : Pattern => UInt32} (agrees : list.Agrees times)

include agrees

theorem size_eq : list.size = times.keys.card := by
  rw [agrees.size, agrees.models.card_keys (keys_entry list.nodes ▸ agrees.nodup), List.length_map]

theorem search_eq (type : Int8) (nonempty : buff ≠ []) :
    list.searchFilterNode type buff = (times.lookup (type, buff)).getD 0 := by
  rw [agrees.models (type, buff), searchFilterNode]
  rcases list.walk_cases type nonempty with
    ⟨passed, node, rest, walked, isNodes, isPattern, absent⟩ | ⟨passed, walked, absent⟩
  · have found : node.entry.1 = (type, buff) := isPattern
    rw [walked, isNodes, List.map_append,
      Keyed.find_append_of_notMem (keys_entry passed ▸ absent), List.map_cons, Keyed.find_cons,
      if_pos found]
    rfl
  · rw [walked, Keyed.find_eq_none_iff.mpr (keys_entry list.nodes ▸ absent)]
    rfl

theorem add (type : Int8) (nonempty : buff ≠ []) (now : UInt32) :
    (list.addFilterNode type buff now).1.Agrees (times.insert (type, buff) now) := by
  obtain ⟨models, nodup, size⟩ := agrees
  rw [addFilterNode]
  rcases list.walk_cases type nonempty with
    ⟨passed, node, rest, walked, isNodes, isPattern, absent⟩ | ⟨passed, walked, absent⟩
  · obtain ⟨rfl, rfl⟩ := Prod.mk.inj isPattern
    rw [isNodes, List.map_append] at models nodup
    rw [isNodes, List.length_append] at size
    rw [walked]
    refine ⟨?_, ?_, ?_⟩
    · dsimp only
      rw [List.map_append]
      exact models.overwrite (keys_entry passed ▸ absent) now
    · dsimp only
      rw [List.map_append]
      exact nodup
    · dsimp only
      rw [List.length_append]
      exact size
  · rw [walked]
    dsimp only
    rw [if_neg nonempty]
    refine ⟨models.cons _ _, List.nodup_cons.mpr ⟨absent, nodup⟩, ?_⟩
    dsimp only
    rw [List.length_cons, size]
    rfl

/-- The node behind the head is not the one to remove. -/
theorem remove (type : Int8) (nonempty : buff ≠ [])
    (clean : ∀ node ∈ list.nodes[1]?, node.pattern ≠ (type, buff)) :
    (list.removeFilterNode type buff).1.Agrees (times.erase (type, buff)) := by
  obtain ⟨models, nodup, size⟩ := agrees
  rw [removeFilterNode]
  rcases list.walk_cases type nonempty with
    ⟨passed, node, rest, walked, isNodes, isPattern, absent⟩ | ⟨passed, walked, absent⟩
  · have left : (if passed.length ≤ 1 then rest else passed ++ rest) = passed ++ rest := by
      rcases passed with _ | ⟨first, _ | ⟨second, others⟩⟩
      · rfl
      · exact absurd isPattern (clean node (by rw [isNodes]; rfl))
      · exact if_neg (by simp)
    obtain ⟨rfl, rfl⟩ := Prod.mk.inj isPattern
    rw [isNodes, List.map_append] at models nodup
    obtain ⟨gone, once⟩ := List.nodup_cons.mp (List.nodup_middle.mp nodup)
    rw [← List.map_append] at gone once
    rw [walked]
    dsimp only
    rw [left]
    refine ⟨models.without (keys_entry (passed ++ rest) ▸ gone) fun other ne => ?_, once, ?_⟩
    · dsimp only
      rw [List.map_append]
      exact Eq.symm (Keyed.find_skip ne)
    · dsimp only
      rw [size, isNodes, List.length_append, List.length_append, List.length_cons]
      omega
  · rw [walked]
    exact ⟨models.without (keys_entry list.nodes ▸ absent) fun _ _ => rfl, nodup, size⟩

end Agrees

end FilterList

/-! ### Runs -/

/-- A call of `add_filter_node`, with the time it finds, or of `remove_filter_node`. -/
inductive FilterEvent
  | add (type : Int8) (buff : List UInt8) (now : UInt32)
  | remove (type : Int8) (buff : List UInt8)

/-- A filter list beside the map it stands for. -/
structure Filters where
  list : FilterList
  times : Finmap fun _ : Pattern => UInt32

namespace Filters

def start : Filters := ⟨.empty, ∅⟩

def step (filters : Filters) : FilterEvent → Except Common.Fault Filters
  | .add type buff now => .ok
    ⟨(filters.list.addFilterNode type buff now).1, filters.times.insert (type, buff) now⟩
  | .remove type buff => .ok
    ⟨(filters.list.removeFilterNode type buff).1, filters.times.erase (type, buff)⟩

/-- Patterns are not empty, and no pattern is removed that stands right behind the head. -/
def Clean (filters : Filters) : FilterEvent → Prop
  | .add _ buff _ => buff ≠ []
  | .remove type buff =>
    buff ≠ [] ∧ ∀ node ∈ filters.list.nodes[1]?, node.pattern ≠ (type, buff)

instance (filters : Filters) : (event : FilterEvent) → Decidable (filters.Clean event)
  | .add _ buff _ => inferInstanceAs (Decidable (buff ≠ []))
  | .remove _ buff => inferInstanceAs (Decidable (buff ≠ [] ∧ _))

/-- What a map would answer, for every pattern, and the number of its patterns. -/
def AsMap (filters : Filters) : Prop :=
  (∀ type buff, buff ≠ [] → filters.list.searchFilterNode type buff =
    (filters.times.lookup (type, buff)).getD 0) ∧
  filters.list.size = filters.times.keys.card

/-- In every run without such removals the list is a finite map. -/
theorem filter_list_as_map {filters : Filters} (reached : Reached step Clean start filters) :
    filters.AsMap := by
  have agrees : filters.list.Agrees filters.times := by
    refine reached.invariant (fun filters => filters.list.Agrees filters.times) ?_ ?_
    · exact ⟨Keyed.models_nil, List.nodup_nil, rfl⟩
    · intro filters next event agrees clean stepped
      cases event with
      | add type buff now =>
        cases stepped
        exact agrees.add type clean now
      | remove type buff =>
        cases stepped
        exact agrees.remove type clean.1 clean.2
  exact ⟨fun type _ nonempty => agrees.search_eq type nonempty, agrees.size_eq⟩

/-- Of two patterns the one that was added last is removed. -/
theorem filter_list_as_map_pair : ∃ filters, Reached step Clean start filters ∧ filters.AsMap ∧
    filters.list.searchFilterNode 1 [7] = 100 := by
  obtain ⟨filters, reached, kept⟩ : ∃ filters, Reached step Clean start filters ∧
      filters.list.searchFilterNode 1 [7] = 100 :=
    exists_run [.add 1 [7] 100, .add 1 [8] 200, .remove 1 [8]] (by decide +kernel)
  exact ⟨filters, reached, filter_list_as_map reached, kept⟩

/-- The one that was added first is removed: the other one goes with it. -/
theorem second_node_takes_the_first :
    ∃ filters, Reached step (fun _ _ => True) start filters ∧
      filters.times.lookup (1, [8]) = some 200 ∧
      filters.list.searchFilterNode 1 [8] = 0 ∧ filters.list = ⟨1, []⟩ ∧ ¬ filters.AsMap := by
  refine ⟨_, .step (.step (.step .start (.add 1 [7] 100) trivial rfl) (.add 1 [8] 200) trivial rfl)
    (.remove 1 [7]) trivial rfl, ?_, ?_, ?_, ?_⟩
  · rfl
  · rfl
  · rfl
  · intro asMap
    have found := asMap.1 1 [8] (by decide)
    cases found

end Filters

/-! ### Iterators -/

structure FilterListIterator where
  type : Int8
  next : List FilterNode
  deriving DecidableEq, Repr

def filterTypeField : Int8 := 1

namespace FilterListIterator

/-- `create_filter_list_iterator`. -/
def create (list : FilterList) (type : Int8) : FilterListIterator := ⟨type, list.nodes⟩

def wants (type : Int8) (node : FilterNode) : Bool := type &&& node.type ≠ 0

/-- `next_filter_node`, if it ends within so many rounds of its loop. -/
def nextFilterNode (iter : FilterListIterator) :
    Nat → Option (Option FilterNode × FilterListIterator)
  | 0 => none
  | rounds + 1 =>
    match iter.next with
    | [] => some (none, iter)
    | node :: rest =>
      if wants iter.type node then some (some node, { iter with next := rest })
      else nextFilterNode iter rounds

/-- The nodes that the calls return until one returns NULL, within so many calls. -/
def walk (rounds : Nat) : Nat → FilterListIterator → Option (List FilterNode)
  | 0, _ => none
  | calls + 1, iter =>
    match iter.nextFilterNode rounds with
    | none => none
    | some (none, _) => some []
    | some (some node, next) => (walk rounds calls next).map (node :: ·)

/-- The nodes for which `filter_field` runs its command. -/
def filterField (list : FilterList) (rounds calls : Nat) : Option (List FilterNode) :=
  if list.nodes = [] then some [] else walk rounds calls (create list filterTypeField)

variable {type : Int8} {nodes : List FilterNode}

theorem nextFilterNode_unwanted {node : FilterNode} {rest : List FilterNode}
    (unwanted : wants type node = false) (rounds : Nat) :
    nextFilterNode ⟨type, node :: rest⟩ rounds = none := by
  induction rounds with
  | zero => rfl
  | succ rounds ih =>
    rw [nextFilterNode]
    dsimp only
    rw [if_neg (ne_true_of_eq_false unwanted)]
    exact ih

theorem walk_of_wanted (wanted : ∀ node ∈ nodes, wants type node = true) :
    walk 1 (nodes.length + 1) ⟨type, nodes⟩ = some nodes := by
  induction nodes with
  | nil => rfl
  | cons node rest ih =>
    obtain ⟨first, others⟩ := List.forall_mem_cons.mp wanted
    have gave : nextFilterNode ⟨type, node :: rest⟩ 1 = some (some node, ⟨type, rest⟩) :=
      if_pos first
    rw [List.length_cons, walk, gave]
    dsimp only
    rw [ih others]
    rfl

theorem wanted_of_walk {rounds calls : Nat} {gave : List FilterNode}
    (walked : walk rounds calls ⟨type, nodes⟩ = some gave) :
    ∀ node ∈ nodes, wants type node = true := by
  induction nodes generalizing calls gave with
  | nil => exact List.forall_mem_nil _
  | cons node rest ih =>
    cases calls with
    | zero => cases walked
    | succ calls =>
      rw [walk] at walked
      cases wanted : wants type node with
      | false =>
        rw [nextFilterNode_unwanted wanted] at walked
        cases walked
      | true =>
        cases rounds with
        | zero => cases walked
        | succ rounds =>
          rw [nextFilterNode] at walked
          dsimp only at walked
          rw [if_pos wanted] at walked
          obtain ⟨later, walked, -⟩ := Option.map_eq_some_iff.mp walked
          exact List.forall_mem_cons.mpr ⟨wanted, ih walked⟩

/-- The calls return the wanted nodes, and `filter_field` ends, exactly for lists in which all
nodes are wanted. -/
theorem iterator_returns_wanted_iff (list : FilterList) :
    (∀ type, (∃ rounds calls, walk rounds calls (create list type) =
        some (list.nodes.filter (wants type))) ↔ ∀ node ∈ list.nodes, wants type node = true) ∧
    ((∃ rounds calls, (filterField list rounds calls).isSome) ↔
      ∀ node ∈ list.nodes, wants filterTypeField node = true) := by
  refine ⟨fun type => ⟨fun ⟨rounds, calls, walked⟩ => wanted_of_walk walked, fun wanted => ?_⟩,
    fun ⟨rounds, calls, ends⟩ => ?_, fun wanted => ⟨1, list.nodes.length + 1, ?_⟩⟩
  · refine ⟨1, list.nodes.length + 1, ?_⟩
    rw [List.filter_eq_self.mpr wanted]
    exact walk_of_wanted wanted
  · unfold filterField at ends
    split_ifs at ends with none
    · rw [none]
      exact List.forall_mem_nil _
    · obtain ⟨returned, walked⟩ := Option.isSome_iff_exists.mp ends
      exact wanted_of_walk walked
  · unfold filterField
    split_ifs
    · rfl
    · rw [create, walk_of_wanted wanted]
      rfl

/-- A value filter in front of a field filter is looked at for ever. -/
theorem value_filter_never_passed :
    ¬∃ rounds calls, (filterField ⟨2, [⟨4, 200, [8]⟩, ⟨1, 100, [7]⟩]⟩ rounds calls).isSome := by
  rintro ⟨rounds, calls, ends⟩
  obtain ⟨returned, walked⟩ := Option.isSome_iff_exists.mp ends
  have wanted := @wanted_of_walk filterTypeField _ rounds calls returned walked
    ⟨4, 200, [8]⟩ List.mem_cons_self
  cases wanted

end FilterListIterator

end Tair.Rdb
