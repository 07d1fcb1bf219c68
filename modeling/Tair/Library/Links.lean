/-
Lists threaded through their nodes, with links to the next node or also to the one before. Changes
are described by what the links are afterwards, so that a list can be followed through a memory in
which much else changes.
-/

import Mathlib

namespace Tair.Library

open Function

variable {ν : Type}

/-- The links from `first` on lead through these nodes, in this order, and end. -/
def Chain (next : ν → Option ν) : Option ν → List ν → Prop
  | first, [] => first = none
  | first, node :: rest => first = some node ∧ Chain next (next node) rest

namespace Chain

variable {next next' : ν → Option ν} {first : Option ν} {nodes before after : List ν}
  {node prior : ν}

theorem congr (chain : Chain next first nodes)
    (same : ∀ other ∈ nodes, next' other = next other) : Chain next' first nodes := by
  induction nodes generalizing first with
  | nil => exact chain
  | cons head rest ih =>
    obtain ⟨starts, linked⟩ := chain
    refine ⟨starts, ?_⟩
    rw [same head List.mem_cons_self]
    exact ih linked (fun other member => same other (List.mem_cons_of_mem _ member))

theorem first_eq (chain : Chain next first nodes) : first = nodes.head? := by
  cases nodes with
  | nil => exact chain
  | cons head rest => exact chain.1

theorem first_mem (chain : Chain next (some node) nodes) : node ∈ nodes :=
  List.mem_of_head? chain.first_eq.symm

theorem first_ne_none (chain : Chain next first nodes) (member : node ∈ nodes) : first ≠ none := by
  rintro rfl
  cases nodes with
  | nil => exact List.not_mem_nil member
  | cons head rest => cases chain.1

theorem unique {others : List ν} (chain : Chain next first nodes)
    (other : Chain next first others) : nodes = others := by
  induction nodes generalizing first others with
  | nil =>
    cases others with
    | nil => rfl
    | cons head rest => exact absurd (chain.symm.trans other.1) (by simp)
  | cons head rest ih =>
    cases others with
    | nil => exact absurd (other.symm.trans chain.1) (by simp)
    | cons head' rest' =>
      obtain ⟨starts, linked⟩ := chain
      obtain ⟨starts', linked'⟩ := other
      obtain rfl : head = head' := Option.some.inj (starts.symm.trans starts')
      rw [ih linked linked']

theorem push (chain : Chain next first nodes) (linked : next' node = first)
    (same : ∀ other ∈ nodes, next' other = next other) :
    Chain next' (some node) (node :: nodes) := by
  refine ⟨rfl, ?_⟩
  rw [linked]
  exact chain.congr same

theorem after_node (chain : Chain next first (before ++ node :: after)) :
    Chain next (next node) after := by
  induction before generalizing first with
  | nil => exact chain.2
  | cons head rest ih => exact ih chain.2

theorem next_eq (chain : Chain next first (before ++ node :: after)) : next node = after.head? :=
  chain.after_node.first_eq

theorem next_ne (chain : Chain next first nodes) (nodup : nodes.Nodup) (member : node ∈ nodes) :
    next node ≠ some node := by
  obtain ⟨before, after, rfl⟩ := List.append_of_mem member
  intro itself
  rw [chain.next_eq] at itself
  have behind := List.mem_of_head? itself
  have apart := (List.nodup_append.mp nodup).2.1
  exact (List.nodup_cons.mp apart).1 behind

theorem next_mem {other : ν} (chain : Chain next first nodes) (member : node ∈ nodes)
    (linked : next node = some other) : other ∈ nodes := by
  obtain ⟨before, after, rfl⟩ := List.append_of_mem member
  rw [chain.next_eq] at linked
  have behind := List.mem_of_head? linked
  exact List.mem_append_right _ (List.mem_cons_of_mem _ behind)

/-- A node is taken out of a chain: whatever led to it now leads to what follows it. -/
theorem remove [DecidableEq ν] {first' : Option ν}
    (chain : Chain next first (before ++ node :: after)) (nodup : (before ++ node :: after).Nodup)
    (starts : first' = if first = some node then next node else first)
    (bypass : ∀ other ∈ before ++ after,
      next' other = if before.getLast? = some other then next node else next other) :
    Chain next' first' (before ++ after) := by
  induction before generalizing first first' with
  | nil =>
    obtain ⟨atNode, linked⟩ := chain
    rw [if_pos atNode] at starts
    rw [starts]
    apply linked.congr
    intro other member
    rw [bypass other member, List.getLast?_nil, if_neg (by simp)]
  | cons head rest ih =>
    obtain ⟨atHead, linked⟩ := chain
    have fresh := List.nodup_cons.mp nodup
    have apart : head ≠ node := by
      intro same
      rw [same] at fresh
      exact fresh.1 (List.mem_append_right _ List.mem_cons_self)
    have start : first' = some head := by
      rw [starts, if_neg]
      · exact atHead
      · intro atNode
        exact apart (Option.some.inj (atHead.symm.trans atNode))
    refine ⟨start, ih linked fresh.2 ?_ ?_⟩
    · rw [bypass head List.mem_cons_self]
      cases rest with
      | nil =>
        obtain ⟨leads, -⟩ := linked
        rw [List.getLast?_singleton, if_pos rfl, if_pos leads]
      | cons second others =>
        obtain ⟨leads, -⟩ := linked
        have notLast : ¬ (head :: second :: others).getLast? = some head := by
          intro last
          rw [List.getLast?_cons_cons] at last
          exact fresh.1 (List.mem_append_left _ (List.mem_of_getLast? last))
        have notNode : ¬ next head = some node := by
          intro same
          obtain rfl := Option.some.inj (leads.symm.trans same)
          exact (List.nodup_cons.mp fresh.2).1
            (List.mem_append_right _ List.mem_cons_self)
        rw [if_neg notLast, if_neg notNode]
    · intro other member
      rw [bypass other (List.mem_cons_of_mem _ member)]
      cases rest with
      | nil =>
        have notHead : ¬ [head].getLast? = some other := by
          intro last
          obtain rfl := Option.some.inj last
          exact fresh.1 (List.mem_cons_of_mem _ member)
        rw [if_neg notHead, List.getLast?_nil, if_neg (by simp)]
      | cons second others => rw [List.getLast?_cons_cons]

theorem append [DecidableEq ν] (chain : Chain next first nodes) (nodup : nodes.Nodup)
    (ends : next' node = none) (more : ∀ other ∈ nodes,
      next' other = if nodes.getLast? = some other then some node else next other) :
    Chain next' (if first = none then some node else first) (nodes ++ [node]) := by
  induction nodes generalizing first with
  | nil =>
    have empty : first = none := chain
    rw [if_pos empty]
    exact ⟨rfl, ends⟩
  | cons head rest ih =>
    obtain ⟨starts, linked⟩ := chain
    have fresh := List.nodup_cons.mp nodup
    rw [if_neg (by rw [starts]; simp)]
    refine ⟨starts, ?_⟩
    cases rest with
    | nil =>
      rw [more head List.mem_cons_self, List.getLast?_singleton, if_pos rfl]
      exact ⟨rfl, ends⟩
    | cons second others =>
      have notLast : ¬ (head :: second :: others).getLast? = some head := by
        intro last
        rw [List.getLast?_cons_cons] at last
        exact fresh.1 (List.mem_of_getLast? last)
      have longer := ih linked fresh.2 (by
        intro other member
        rw [more other (List.mem_cons_of_mem _ member), List.getLast?_cons_cons])
      rw [if_neg (by rw [linked.1]; simp)] at longer
      rw [more head List.mem_cons_self, if_neg notLast]
      exact longer

end Chain

/-! ### Two-way lists -/

/-- `next` leads from the head through the nodes and `prev` back from the tail. -/
structure Linked (prev next : ν → Option ν) (head tail : Option ν) (nodes : List ν) : Prop where
  forward : Chain next head nodes
  backward : Chain prev tail nodes.reverse
  nodup : nodes.Nodup

namespace Linked

variable {prev prev' next next' : ν → Option ν} {head head' tail tail' : Option ν}
  {nodes before after : List ν} {node : ν}

theorem empty : Linked prev next none none [] :=
  ⟨rfl, rfl, List.nodup_nil⟩

theorem congr (linked : Linked prev next head tail nodes)
    (sameNext : ∀ other ∈ nodes, next' other = next other)
    (samePrev : ∀ other ∈ nodes, prev' other = prev other) : Linked prev' next' head tail nodes :=
  ⟨linked.forward.congr sameNext,
    linked.backward.congr (fun other member => samePrev other (List.mem_reverse.mp member)),
    linked.nodup⟩

theorem next_eq (linked : Linked prev next head tail (before ++ node :: after)) :
    next node = after.head? :=
  linked.forward.next_eq

theorem prev_eq (linked : Linked prev next head tail (before ++ node :: after)) :
    prev node = before.getLast? := by
  have back := linked.backward
  rw [List.reverse_append, List.reverse_cons, List.append_assoc] at back
  exact (Chain.next_eq back).trans List.head?_reverse

/-- A new first node. The former first node gets a link back, and an empty list an end. -/
theorem push [DecidableEq ν] (linked : Linked prev next head tail nodes) (notIn : node ∉ nodes)
    (nextNode : next' node = head) (prevNode : prev' node = none)
    (sameNext : ∀ other ∈ nodes, next' other = next other) (samePrev : ∀ other ∈ nodes,
      prev' other = if head = some other then some node else prev other)
    (ends : tail' = if tail = none then some node else tail) :
    Linked prev' next' (some node) tail' (node :: nodes) := by
  refine ⟨linked.forward.push nextNode sameNext, ?_, List.nodup_cons.mpr ⟨notIn, linked.nodup⟩⟩
  rw [List.reverse_cons, ends]
  apply linked.backward.append (List.nodup_reverse.mpr linked.nodup) prevNode
  intro other member
  rw [samePrev other (List.mem_reverse.mp member), List.getLast?_reverse, linked.forward.first_eq]

/-- A node is taken out: its neighbours are linked with each other, and the ends move
when it was one of them. -/
theorem remove [DecidableEq ν] (linked : Linked prev next head tail (before ++ node :: after))
    (starts : head' = if head = some node then next node else head)
    (ends : tail' = if tail = some node then prev node else tail)
    (bypassNext : ∀ other ∈ before ++ after,
      next' other = if prev node = some other then next node else next other)
    (bypassPrev : ∀ other ∈ before ++ after,
      prev' other = if next node = some other then prev node else prev other) :
    Linked prev' next' head' tail' (before ++ after) := by
  have nodup := linked.nodup
  have shorter : (before ++ after).Nodup :=
    nodup.sublist (List.Sublist.append_left (List.sublist_cons_self _ _) _)
  refine ⟨linked.forward.remove nodup starts ?_, ?_, shorter⟩
  · intro other member
    rw [bypassNext other member, linked.prev_eq]
  · have back := linked.backward
    have reversed : (before ++ node :: after).reverse =
        after.reverse ++ node :: before.reverse := by
      rw [List.reverse_append, List.reverse_cons, List.append_assoc]
      rfl
    rw [List.reverse_append]
    rw [reversed] at back
    apply back.remove (reversed ▸ List.nodup_reverse.mpr nodup) ends
    intro other member
    have within : other ∈ before ++ after := by
      rw [← List.reverse_append] at member
      exact List.mem_reverse.mp member
    rw [bypassPrev other within, List.getLast?_reverse, linked.next_eq]

end Linked

/-! ### Families of lists

`place` says on which list of the family a node is, if it is on one. -/

variable {ι : Type}

/-- One chain for every index. -/
def Chained (next : ν → Option ν) (first : ι → Option ν) (place : ν → Option ι) : Prop :=
  ∀ index, ∃ nodes, Chain next (first index) nodes ∧ nodes.Nodup ∧
    ∀ node, node ∈ nodes ↔ place node = some index

/-- One two-way list for every index. -/
def Threaded (prev next : ν → Option ν) (head tail : ι → Option ν) (place : ν → Option ι) :
    Prop :=
  ∀ index, ∃ nodes, Linked prev next (head index) (tail index) nodes ∧
    ∀ node, node ∈ nodes ↔ place node = some index

section

variable [DecidableEq ν] {place : ν → Option ι} {nodes before after : List ν} {node : ν} {index : ι}

theorem place_joined (members : ∀ other, other ∈ nodes ↔ place other = some index)
    (notIn : place node = none) :
    (∀ other, update place node (some index) other = some index ↔ other ∈ node :: nodes) ∧
      ∀ other list, list ≠ index →
        (update place node (some index) other = some list ↔ place other = some list) := by
  constructor
  · intro other
    by_cases same : other = node
    · simp [same]
    · rw [update_of_ne same, ← members]
      simp [same]
  · intro other list ne
    by_cases same : other = node
    · simp [same, notIn, ne.symm]
    · rw [update_of_ne same]

theorem place_left (members : ∀ other, other ∈ before ++ node :: after ↔ place other = some index)
    (nodup : (before ++ node :: after).Nodup) :
    (∀ other, update place node none other = some index ↔ other ∈ before ++ after) ∧
      ∀ other list, list ≠ index →
        (update place node none other = some list ↔ place other = some list) := by
  have alone := (List.nodup_cons.mp (List.nodup_middle.mp nodup)).1
  constructor
  · intro other
    by_cases same : other = node
    · rw [same, update_self]
      simpa using alone
    · rw [update_of_ne same, ← members]
      simp [same]
  · intro other list ne
    by_cases same : other = node
    · have placed := (members node).mp (List.mem_append_right _ List.mem_cons_self)
      simp [same, placed, ne.symm]
    · rw [update_of_ne same]

end

namespace Chained

variable {next next' : ν → Option ν} {first first' : ι → Option ν} {place place' : ν → Option ι}
  {node other : ν} {index : ι}

section

variable (chained : Chained next first place)

include chained

theorem congr (sameNext : ∀ node index, place node = some index → next' node = next node)
    (sameFirst : ∀ index, first' index = first index) (samePlace : ∀ node, place' node = place node) :
    Chained next' first' place' := by
  intro index
  obtain ⟨nodes, chain, nodup, members⟩ := chained index
  refine ⟨nodes, ?_, nodup, fun node => ?_⟩
  · rw [sameFirst]
    exact chain.congr (fun node member => sameNext node index ((members node).mp member))
  · rw [samePlace, members]

theorem place_first (starts : first index = some node) : place node = some index := by
  obtain ⟨nodes, chain, -, members⟩ := chained index
  rw [starts] at chain
  exact (members node).mp chain.first_mem

theorem place_next (placed : place node = some index) (leads : next node = some other) :
    place other = some index := by
  obtain ⟨nodes, chain, -, members⟩ := chained index
  exact (members other).mp (chain.next_mem ((members node).mpr placed) leads)

theorem next_ne (placed : place node = some index) : next node ≠ some node := by
  obtain ⟨nodes, chain, nodup, members⟩ := chained index
  exact chain.next_ne nodup ((members node).mpr placed)

theorem first_ne_none (placed : place node = some index) : first index ≠ none := by
  obtain ⟨nodes, chain, -, members⟩ := chained index
  exact chain.first_ne_none ((members node).mpr placed)

/-- One chain is laid anew, through nodes that were on it or on none. -/
theorem replace {nodes : List ν} (chain : Chain next' (first' index) nodes) (nodup : nodes.Nodup)
    (firstOther : ∀ other, other ≠ index → first' other = first other)
    (sameNext : ∀ node other, place node = some other → other ≠ index → next' node = next node)
    (placeIndex : ∀ node, place' node = some index ↔ node ∈ nodes)
    (placeOther : ∀ node other, other ≠ index →
      (place' node = some other ↔ place node = some other)) : Chained next' first' place' := by
  intro list
  by_cases here : list = index
  · subst here
    exact ⟨nodes, chain, nodup, fun node => (placeIndex node).symm⟩
  · obtain ⟨others, otherChain, otherNodup, members⟩ := chained list
    refine ⟨others, ?_, otherNodup, fun node => ?_⟩
    · rw [firstOther list here]
      apply otherChain.congr
      intro node member
      exact sameNext node list ((members node).mp member) here
    · rw [members, placeOther node list here]

theorem push [DecidableEq ν] (index : ι) (notIn : place node = none)
    (firstIndex : first' index = some node)
    (firstOther : ∀ other, other ≠ index → first' other = first other)
    (nextNode : next' node = first index)
    (sameNext : ∀ other, other ≠ node → next' other = next other) :
    Chained next' first' (update place node (some index)) := by
  have ne : ∀ other list, place other = some list → other ≠ node := by
    rintro other list placed rfl
    cases notIn.symm.trans placed
  obtain ⟨nodes, chain, nodup, members⟩ := chained index
  have apart : ∀ other ∈ nodes, other ≠ node :=
    fun other member => ne other index ((members other).mp member)
  have longer : Chain next' (first' index) (node :: nodes) := by
    rw [firstIndex]
    exact chain.push nextNode (fun other member => sameNext other (apart other member))
  obtain ⟨placeIndex, placeOther⟩ := place_joined members notIn
  exact chained.replace longer (List.nodup_cons.mpr ⟨fun member => apart node member rfl, nodup⟩)
    firstOther (fun other list placed _ => sameNext other (ne other list placed))
    placeIndex placeOther

end

/-- A node leaves its chain. `prior` is what led to it, if it was not the first. -/
theorem remove [DecidableEq ν] {prior : Option ν} {before after : List ν}
    (chained : Chained next first place)
    (chain : Chain next (first index) (before ++ node :: after))
    (nodup : (before ++ node :: after).Nodup) (last : prior = before.getLast?)
    (firstIndex : first' index = if prior = none then next node else first index)
    (firstOther : ∀ other, other ≠ index → first' other = first other)
    (bypass : ∀ other, other ≠ node →
      next' other = if prior = some other then next node else next other) :
    Chained next' first' (update place node none) := by
  obtain ⟨nodes, ownChain, -, members⟩ := chained index
  obtain rfl := ownChain.unique chain
  have alone := List.nodup_cons.mp (List.nodup_middle.mp nodup)
  have apart : ∀ other ∈ before ++ after, other ≠ node :=
    fun other member => ne_of_mem_of_not_mem member alone.1
  obtain ⟨placeIndex, placeOther⟩ := place_left members nodup
  refine chained.replace ?_ alone.2 firstOther ?_ placeIndex placeOther
  · apply chain.remove nodup
    · rw [firstIndex, last]
      cases before with
      | nil =>
        obtain ⟨starts, -⟩ := chain
        rw [List.getLast?_nil, if_pos rfl, if_pos starts]
      | cons head rest =>
        obtain ⟨starts, -⟩ := chain
        have ne : head ≠ node := apart head List.mem_cons_self
        rw [if_neg (by simp), if_neg (by rw [starts]; simpa using ne)]
    · intro other member
      rw [bypass other (apart other member), last]
  · intro other list placed elsewhere
    have ne : ∀ own ∈ before ++ node :: after, own ≠ other := by
      rintro own member rfl
      exact elsewhere (Option.some.inj (placed.symm.trans ((members own).mp member)))
    rw [bypass other (ne node (List.mem_append_right _ List.mem_cons_self)).symm, if_neg]
    intro same
    rw [last] at same
    exact ne other (List.mem_append_left _ (List.mem_of_getLast? same)) rfl

end Chained

namespace Threaded

variable {prev prev' next next' : ν → Option ν} {head head' tail tail' : ι → Option ν}
  {place place' : ν → Option ι} {node other : ν} {index : ι}

theorem congr (threaded : Threaded prev next head tail place)
    (sameNext : ∀ node index, place node = some index → next' node = next node)
    (samePrev : ∀ node index, place node = some index → prev' node = prev node)
    (sameHead : ∀ index, head' index = head index) (sameTail : ∀ index, tail' index = tail index)
    (samePlace : ∀ node, place' node = place node) : Threaded prev' next' head' tail' place' := by
  intro index
  obtain ⟨nodes, linked, members⟩ := threaded index
  refine ⟨nodes, ?_, fun node => ?_⟩
  · rw [sameHead, sameTail]
    apply linked.congr
    · intro node member
      exact sameNext node index ((members node).mp member)
    · intro node member
      exact samePrev node index ((members node).mp member)
  · rw [samePlace, members]

section

variable (threaded : Threaded prev next head tail place)

include threaded

theorem forward : Chained next head place := by
  intro index
  obtain ⟨nodes, linked, members⟩ := threaded index
  exact ⟨nodes, linked.forward, linked.nodup, members⟩

theorem backward : Chained prev tail place := by
  intro index
  obtain ⟨nodes, linked, members⟩ := threaded index
  refine ⟨nodes.reverse, linked.backward, List.nodup_reverse.mpr linked.nodup, fun node => ?_⟩
  rw [List.mem_reverse, members]

theorem alone (placed : place node = some index) (first : prev node = none) (last : next node = none)
    (same : place other = some index) : other = node := by
  obtain ⟨nodes, linked, members⟩ := threaded index
  obtain ⟨before, after, rfl⟩ := List.append_of_mem ((members node).mpr placed)
  have noneBefore := List.getLast?_eq_none_iff.mp (linked.prev_eq.symm.trans first)
  have noneAfter := List.head?_eq_none_iff.mp (linked.next_eq.symm.trans last)
  have member := (members other).mpr same
  rw [noneBefore, noneAfter] at member
  exact List.mem_singleton.mp member

/-- One list is laid anew, through nodes that were on it or on none. -/
theorem replace {nodes : List ν} (linked : Linked prev' next' (head' index) (tail' index) nodes)
    (headOther : ∀ other, other ≠ index → head' other = head other)
    (tailOther : ∀ other, other ≠ index → tail' other = tail other)
    (same : ∀ node other, place node = some other → other ≠ index →
      next' node = next node ∧ prev' node = prev node)
    (placeIndex : ∀ node, place' node = some index ↔ node ∈ nodes)
    (placeOther : ∀ node other, other ≠ index →
      (place' node = some other ↔ place node = some other)) :
    Threaded prev' next' head' tail' place' := by
  intro list
  by_cases here : list = index
  · subst here
    exact ⟨nodes, linked, fun node => (placeIndex node).symm⟩
  · obtain ⟨others, otherLinked, members⟩ := threaded list
    have kept : ∀ node ∈ others, next' node = next node ∧ prev' node = prev node :=
      fun node member => same node list ((members node).mp member) here
    refine ⟨others, ?_, fun node => ?_⟩
    · rw [headOther list here, tailOther list here]
      exact otherLinked.congr (fun node member => (kept node member).1)
        (fun node member => (kept node member).2)
    · rw [members, placeOther node list here]

theorem push [DecidableEq ν] (index : ι) (notIn : place node = none)
    (headIndex : head' index = some node)
    (headOther : ∀ other, other ≠ index → head' other = head other)
    (tailIndex : tail' index = if tail index = none then some node else tail index)
    (tailOther : ∀ other, other ≠ index → tail' other = tail other)
    (nextNode : next' node = head index) (prevNode : prev' node = none)
    (sameNext : ∀ other, other ≠ node → next' other = next other)
    (samePrev : ∀ other, other ≠ node →
      prev' other = if head index = some other then some node else prev other) :
    Threaded prev' next' head' tail' (update place node (some index)) := by
  have ne : ∀ other list, place other = some list → other ≠ node := by
    rintro other list placed rfl
    cases notIn.symm.trans placed
  obtain ⟨nodes, linked, members⟩ := threaded index
  have apart : ∀ other ∈ nodes, other ≠ node :=
    fun other member => ne other index ((members other).mp member)
  have longer : Linked prev' next' (head' index) (tail' index) (node :: nodes) := by
    rw [headIndex]
    exact linked.push (fun member => apart node member rfl) nextNode prevNode
      (fun other member => sameNext other (apart other member))
      (fun other member => samePrev other (apart other member)) tailIndex
  obtain ⟨placeIndex, placeOther⟩ := place_joined members notIn
  refine threaded.replace longer headOther tailOther ?_ placeIndex placeOther
  intro other list placed elsewhere
  have new := ne other list placed
  refine ⟨sameNext other new, ?_⟩
  rw [samePrev other new, if_neg]
  intro starts
  exact elsewhere (Option.some.inj (placed.symm.trans (threaded.forward.place_first starts)))

theorem remove [DecidableEq ν] (placed : place node = some index)
    (headIndex : head' index = if head index = some node then next node else head index)
    (headOther : ∀ other, other ≠ index → head' other = head other)
    (tailIndex : tail' index = if tail index = some node then prev node else tail index)
    (tailOther : ∀ other, other ≠ index → tail' other = tail other)
    (bypassNext : ∀ other, other ≠ node →
      next' other = if prev node = some other then next node else next other)
    (bypassPrev : ∀ other, other ≠ node →
      prev' other = if next node = some other then prev node else prev other) :
    Threaded prev' next' head' tail' (update place node none) := by
  obtain ⟨nodes, linked, members⟩ := threaded index
  obtain ⟨before, after, rfl⟩ := List.append_of_mem ((members node).mpr placed)
  have alone := (List.nodup_cons.mp (List.nodup_middle.mp linked.nodup)).1
  have apart : ∀ other ∈ before ++ after, other ≠ node :=
    fun other member => ne_of_mem_of_not_mem member alone
  obtain ⟨placeIndex, placeOther⟩ := place_left members linked.nodup
  have shorter := linked.remove headIndex tailIndex
    (fun other member => bypassNext other (apart other member))
    (fun other member => bypassPrev other (apart other member))
  refine threaded.replace shorter headOther tailOther ?_ placeIndex placeOther
  intro other list own elsewhere
  have ne : place other ≠ some index :=
    fun here => elsewhere (Option.some.inj (own.symm.trans here))
  have new : other ≠ node := by
    rintro rfl
    exact ne placed
  rw [bypassNext other new, bypassPrev other new,
    if_neg (fun leads => ne (threaded.backward.place_next placed leads)),
    if_neg (fun leads => ne (threaded.forward.place_next placed leads))]
  exact ⟨rfl, rfl⟩

end

end Threaded

/-! ### Where a node is listed -/

/-- Lists that hold every node where its place says, and once. -/
def Listed (lists : ι → List ν) (place : ν → Option ι) : Prop :=
  ∀ index, (lists index).Nodup ∧ ∀ node, node ∈ lists index ↔ place node = some index

/-- Once on one list of the family, and on no other. -/
def OnceOn [DecidableEq ν] [DecidableEq ι] (lists : ι → List ν) (node : ν) (index : ι) : Prop :=
  ∀ other, (lists other).count node = if other = index then 1 else 0

theorem Chained.listed {next : ν → Option ν} {first : ι → Option ν} {place : ν → Option ι}
    (chained : Chained next first place) :
    ∃ lists, Listed lists place ∧ ∀ index, Chain next (first index) (lists index) := by
  choose lists chain nodup members using chained
  exact ⟨lists, fun index => ⟨nodup index, members index⟩, chain⟩

theorem Threaded.listed {prev next : ν → Option ν} {head tail : ι → Option ν}
    {place : ν → Option ι} (threaded : Threaded prev next head tail place) :
    ∃ lists, Listed lists place ∧
      ∀ index, Linked prev next (head index) (tail index) (lists index) := by
  choose lists linked members using threaded
  exact ⟨lists, fun index => ⟨(linked index).nodup, members index⟩, linked⟩

namespace Listed

variable {lists : ι → List ν} {place : ν → Option ι} {node : ν} {index : ι}

theorem onceOn [DecidableEq ν] [DecidableEq ι] (listed : Listed lists place) (placed : place node = some index) :
    OnceOn lists node index := by
  intro other
  obtain ⟨nodup, members⟩ := listed other
  split
  next same =>
    rw [same] at members nodup ⊢
    exact List.count_eq_one_of_mem nodup ((members node).mpr placed)
  next ne =>
    apply List.count_eq_zero_of_not_mem
    intro member
    exact ne (Option.some.inj (((members node).mp member).symm.trans placed))

theorem not_mem (listed : Listed lists place) (off : place node = none) : node ∉ lists index := by
  intro member
  cases off.symm.trans (((listed index).2 node).mp member)

theorem sum_length [DecidableEq ν] [DecidableEq ι] (listed : Listed lists place)
    {indices : Finset ι} {found : Finset ν}
    (placed : ∀ node, node ∈ found ↔ ∃ index ∈ indices, place node = some index) :
    ∑ index ∈ indices, (lists index).length = found.card := by
  have union : found = indices.biUnion (fun index => (lists index).toFinset) := by
    ext node
    rw [placed, Finset.mem_biUnion]
    simp only [List.mem_toFinset, (listed _).2]
  have lengths : ∀ index, (lists index).length = (lists index).toFinset.card :=
    fun index => (List.toFinset_card_of_nodup (listed index).1).symm
  rw [union, Finset.card_biUnion]
  · exact Finset.sum_congr rfl (fun index _ => lengths index)
  · intro first _ second _ ne
    change Disjoint (lists first).toFinset (lists second).toFinset
    rw [Finset.disjoint_left]
    intro node onFirst onSecond
    rw [List.mem_toFinset, (listed _).2] at onFirst onSecond
    exact ne (Option.some.inj (onFirst.symm.trans onSecond))

theorem length_eq [DecidableEq ν] [DecidableEq ι] (listed : Listed lists place) {found : Finset ν}
    (placed : ∀ node, node ∈ found ↔ place node = some index) :
    (lists index).length = found.card := by
  have total : ∑ other ∈ {index}, (lists other).length = found.card := by
    apply listed.sum_length
    intro node
    rw [placed]
    simp only [Finset.mem_singleton, exists_eq_left]
  rw [Finset.sum_singleton] at total
  exact total

end Listed

end Tair.Library
