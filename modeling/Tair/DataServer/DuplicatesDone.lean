/-
The end of a migration and the duplicates. Each packet that nobody has acknowledged has its node,
and the nodes of a bucket are counted, so a number of 0 means that the duplicates are done.
-/

import Tair.DataServer.Acknowledged

namespace Tair.DataServer

open Tair.Common (ReturnCode)
open Tair.Library
open Tair.ConfigServer (Fault)

namespace Call

def Owes (call : Call) : Prop :=
  (∃ fate ∈ call.fates, fate ≠ .acknowledged) ∨
    (call.stage = .send ∧ ∃ place < call.slaves.length, call.fates[place]? ≠ some .acknowledged)

theorem not_owes {call : Call} (fates : ∀ fate ∈ call.fates, fate = .acknowledged)
    (stage : call.stage ≠ .send) : ¬call.Owes := by
  rintro (⟨fate, listed, open_⟩ | ⟨sending, -⟩)
  · exact open_ (fates fate listed)
  · exact stage sending

theorem not_owes_of_unsent {call : Call} (unsent : call.fates = []) (stage : call.stage ≠ .send) :
    ¬call.Owes := by
  refine not_owes (fun fate listed => ?_) stage
  rw [unsent] at listed
  exact absurd listed List.not_mem_nil

theorem not_owes_of_acked {call : Call} (fits : call.fates.length ≤ call.slaves.length)
    (apart : call.slaves.Nodup) (acked : ∀ slave ∈ call.slaves, call.AckedBy slave) :
    ¬call.Owes := by
  have every (place : Nat) (small : place < call.slaves.length) :
      call.fates[place]? = some .acknowledged := by
    obtain ⟨other, slaveAt, fate⟩ := acked _ (List.getElem_mem small)
    obtain ⟨otherSmall, same⟩ := List.getElem?_eq_some_iff.mp slaveAt
    rw [apart.getElem_inj_iff] at same
    rw [← same]
    exact fate
  rintro (⟨fate, listed, unacked⟩ | ⟨-, place, small, unacked⟩)
  · obtain ⟨place, small, rfl⟩ := List.mem_iff_getElem.mp listed
    have acknowledged := every place (by omega)
    rw [List.getElem?_eq_getElem small] at acknowledged
    exact unacked (Option.some.inj acknowledged)
  · exact unacked (every place small)

theorem owes_of_withFate {call : Call} {place : Nat}
    (owes : (call.withFate place .acknowledged).Owes) : call.Owes := by
  rcases owes with ⟨fate, listed, unacked⟩ | ⟨sending, other, small, unacked⟩
  · cases List.mem_or_eq_of_mem_set listed with
    | inl before => exact .inl ⟨fate, before, unacked⟩
    | inr new => exact absurd new unacked
  · refine .inr ⟨sending, other, small, fun acked => unacked ?_⟩
    exact (Later.withFate call place (.inl rfl)).acknowledged other acked

end Call

namespace DupServer

/-- The condition on the steps: the slaves of a replicated write are different and have places,
their acknowledgements come in time and meet their own nodes, a packet that cannot be sent leaves
nothing behind, and the bucket is handed over when no node is counted for it. -/
def Quiet (localIp : UInt64) (server : DupServer) : DupEvent → Prop
  | .write req => req.kind.duplicates req.result.rc = true ∧ needCopy req.keyFlag = true →
    ∀ slaves ∈ (server.manager.getSlaves localIp req.keyFlag
      (server.manager.getBucketNumber req.keyHash)).toOption,
        slaves.length ≤ maxDupCount ∧ slaves.Nodup
  | .proceed request accepted => accepted = true ∨
      ∀ call ∈ server.calls[request]?, ∀ fate ∈ call.fates, fate = .acknowledged
  | .acknowledge request _ => server.Own request
  | .timeOut request _ => (server.nodeOf request).isNone = true
  | .finishMigrate bucketNumber => server.packetsMgr.bucketCount bucketNumber = 0
  | .update _ | .refuse _ _ => True

instance (localIp : UInt64) (server : DupServer) :
    ∀ event : DupEvent, Decidable (Quiet localIp server event)
  | .write _ => inferInstanceAs (Decidable (_ → ∀ _ ∈ _, _))
  | .proceed _ _ => inferInstanceAs (Decidable (_ ∨ _))
  | .acknowledge request _ => inferInstanceAs (Decidable (server.Own request))
  | .timeOut _ _ | .finishMigrate _ => inferInstanceAs (Decidable (_ = _))
  | .update _ | .refuse _ _ => .isTrue trivial

variable {server next : DupServer} {request : Nat} {old new : Call}

theorem Quiet.narrow {ip : UInt64} {event : DupEvent} (quiet : Quiet ip server event) :
    Narrow ip server event := by
  cases event with
  | write req => exact fun duplicates slaves listed => (quiet duplicates slaves listed).1
  | acknowledge request place => exact quiet
  | _ => trivial

structure Guarded (server : DupServer) (request : Nat) (call : Call) : Prop where
  fits : call.fates.length ≤ call.slaves.length
  early : call.stage = .checkSize ∨ call.stage = .insertNode → call.fates = []
  distinct : call.slaves.Nodup
  node : call.Owes → ∃ node,
    server.nodes.lookup call.packetId = some node ∧ node.request = request

def AllGuarded (server : DupServer) : Prop :=
  ∀ (request : Nat) (call : Call), server.calls[request]? = some call → Guarded server request call

structure Drains (server : DupServer) : Prop where
  vouched : server.Vouched
  counts : Counts server.nodes WaitNode.bucketNumber server.packetsMgr.bucketCount
  guarded : server.AllGuarded

theorem Drains.start (manager : TairManager) : (start manager).Drains := by
  refine ⟨.start manager, .empty, fun request call found => ?_⟩
  cases found

theorem Guarded.frame {changed : Nat} {call : Call} (guarded : Guarded server request call)
    (ne : request ≠ changed) (keeps : server.KeepsOthers next changed) :
    Guarded next request call := by
  refine { guarded with node := fun owes => ?_ }
  obtain ⟨node, waits, own⟩ := guarded.node owes
  have other : node.request ≠ changed := own ▸ ne
  exact ⟨node, (keeps _ node other).mpr waits, own⟩

theorem Guarded.early_withFate {call : Call} (guarded : Guarded server request call) {place : Nat}
    {fate : Fate} (early : call.stage = .checkSize ∨ call.stage = .insertNode) :
    (call.withFate place fate).fates = [] := by
  change call.fates.set place fate = []
  rw [guarded.early early]
  rfl

theorem Guarded.fits_withFate {call : Call} (guarded : Guarded server request call) {place : Nat}
    {fate : Fate} : (call.withFate place fate).fates.length ≤ call.slaves.length :=
  (List.length_set ..).le.trans guarded.fits

theorem Guarded.node_of_more {call : Call} {slave : UInt64} (guarded : Guarded server request call)
    (stage : call.stage = .send) (more : call.slaves[call.fates.length]? = some slave) :
    ∃ node, server.nodes.lookup call.packetId = some node ∧ node.request = request := by
  obtain ⟨small, -⟩ := List.getElem?_eq_some_iff.mp more
  refine guarded.node (.inr ⟨stage, call.fates.length, small, fun acked => ?_⟩)
  rw [List.getElem?_eq_none_iff.mpr (Nat.le_refl _)] at acked
  cases acked

theorem AllGuarded.append (all : server.AllGuarded) (calls : next.calls = server.calls ++ [new])
    (nodes : next.nodes = server.nodes) (apart : new.slaves.Nodup)
    (unsent : new.fates = []) (stage : new.stage ≠ .send) : next.AllGuarded := by
  intro request call found
  rw [calls] at found
  cases calls_append_cases found with
  | inl before =>
    have guarded := all request call before
    refine { guarded with node := fun owes => ?_ }
    rw [nodes]
    exact guarded.node owes
  | inr same =>
    subst call
    refine ⟨?_, fun _ => unsent, apart,
      fun owes => absurd owes (Call.not_owes_of_unsent unsent stage)⟩
    rw [unsent]
    exact Nat.zero_le _

section

variable {place : Nat} {node : WaitNode} {slave : UInt64} (all : server.AllGuarded)
  (found : server.calls[request]? = some old)

include all found

theorem AllGuarded.change (calls : next.calls = server.calls.set request new)
    (keeps : server.KeepsOthers next request) (fresh : Guarded next request new) :
    next.AllGuarded := by
  intro other call callFound
  rw [calls] at callFound
  by_cases same : other = request
  · subst other
    rw [List.getElem?_set_self (List.getElem?_eq_some_iff.mp found).1] at callFound
    cases callFound
    exact fresh
  · rw [List.getElem?_set_ne (Ne.symm same)] at callFound
    exact (all other call callFound).frame same keeps

theorem AllGuarded.keepCall (calls : next.calls = server.calls.set request new)
    (nodes : next.nodes = server.nodes)
    (slaves : new.slaves = old.slaves) (id : new.packetId = old.packetId)
    (fits : new.fates.length ≤ new.slaves.length)
    (early : new.stage = .checkSize ∨ new.stage = .insertNode → new.fates = [])
    (owes : new.Owes → old.Owes) : next.AllGuarded := by
  have guarded := all request old found
  refine all.change found calls (.of_eq request nodes)
    ⟨fits, early, slaves ▸ guarded.distinct, fun newOwes => ?_⟩
  rw [nodes, id]
  exact guarded.node (owes newOwes)

theorem AllGuarded.turnedAway (stage : old.stage = .checkSize ∨ old.stage = .insertNode)
    (rc : ReturnCode) : (server.withCall request (old.concluded rc)).AllGuarded := by
  have guarded := all request old found
  have unsent : (old.concluded rc).fates = [] := guarded.early stage
  refine all.keepCall found rfl rfl rfl rfl guarded.fits (fun _ => unsent) (fun owes => ?_)
  exact absurd owes (Call.not_owes_of_unsent unsent (fun sending => by cases sending))

theorem AllGuarded.sent (stage : old.stage = .send)
    (more : old.slaves[old.fates.length]? = some slave) :
    (server.withCall request { old with fates := old.fates ++ [.outstanding] }).AllGuarded := by
  have guarded := all request old found
  obtain ⟨small, -⟩ := List.getElem?_eq_some_iff.mp more
  refine all.change found rfl (.of_eq request rfl)
    ⟨?_, fun early => ?_, guarded.distinct, fun _ => guarded.node_of_more stage more⟩
  · change (old.fates ++ [Fate.outstanding]).length ≤ old.slaves.length
    rw [List.length_append, List.length_singleton]
    omega
  · change old.stage = _ ∨ old.stage = _ at early
    rw [stage] at early
    rcases early with bad | bad <;> cases bad

theorem AllGuarded.inserted (fresh : server.nodes.lookup old.packetId = none)
    (calls : next.calls = server.calls.set request { old with stage := .send })
    (nodes : next.nodes = server.nodes.insert old.packetId
      (old.kind.waitNode old.result old.bucketNumber request old.slaves)) : next.AllGuarded := by
  have guarded := all request old found
  have mine := old.kind.waitNode_request old.result old.bucketNumber request old.slaves
  have own : server.Own request := .of_none found fresh
  refine all.change found calls (.insert own found mine nodes)
    ⟨guarded.fits, fun early => ?_, guarded.distinct, fun _ => ⟨_, ?_, mine⟩⟩
  · rcases early with bad | bad <;> cases bad
  · rw [nodes]
    exact AList.lookup_insert _

theorem AllGuarded.marked (waiting : server.nodes.lookup old.packetId = some node)
    (own : server.Own request)
    (calls : next.calls = server.calls.set request (old.withFate place .acknowledged))
    (nodes : next.nodes = server.nodes.insert old.packetId
      (node.acknowledge slave)) : next.AllGuarded := by
  have guarded := all request old found
  have mine : (node.acknowledge slave).request = request := own node (nodeOf_eq found waiting)
  refine all.change found calls (.insert own found mine nodes)
    ⟨guarded.fits_withFate, guarded.early_withFate, guarded.distinct, fun _ => ⟨_, ?_, mine⟩⟩
  rw [nodes]
  exact AList.lookup_insert _

theorem AllGuarded.dropNode (calls : next.calls = server.calls.set request new)
    (nodes : next.nodes = server.nodes.erase old.packetId)
    (before : server.Own request) (slaves : new.slaves = old.slaves)
    (fits : new.fates.length ≤ new.slaves.length)
    (early : new.stage = .checkSize ∨ new.stage = .insertNode → new.fates = [])
    (nothing : ¬new.Owes) : next.AllGuarded := by
  have guarded := all request old found
  exact all.change found calls (.erase before found nodes)
    ⟨fits, early, slaves ▸ guarded.distinct, fun owes => absurd owes nothing⟩

theorem AllGuarded.completed {reply : Reply} (own : server.Own request)
    (acked : ∀ slave ∈ old.slaves, (old.withFate place .acknowledged).AckedBy slave)
    (calls : next.calls =
      server.calls.set request ((old.withFate place .acknowledged).withReply reply))
    (nodes : next.nodes = server.nodes.erase old.packetId) :
    next.AllGuarded := by
  have guarded := all request old found
  exact all.dropNode found calls nodes own rfl guarded.fits_withFate guarded.early_withFate
    (Call.not_owes_of_acked guarded.fits_withFate guarded.distinct acked)

theorem AllGuarded.failed (stage : old.stage = .send)
    (more : old.slaves[old.fates.length]? = some slave)
    (acked : ∀ fate ∈ old.fates, fate = .acknowledged) {rc : ReturnCode}
    (calls : next.calls = server.calls.set request (old.concluded rc))
    (nodes : next.nodes = server.nodes.erase old.packetId) :
    next.AllGuarded := by
  have guarded := all request old found
  obtain ⟨node, waiting, mine⟩ := guarded.node_of_more stage more
  refine all.dropNode found calls nodes (.of_some found waiting mine) rfl guarded.fits (fun early => ?_) ?_
  · rcases early with bad | bad <;> cases bad
  · exact Call.not_owes acked (fun sending => by cases sending)

end

theorem AllGuarded.step {ip : UInt64} {server next : DupServer} {event : DupEvent}
    (all : server.AllGuarded) (vouched : server.Vouched) (quiet : Quiet ip server event)
    (ran : Step ip server event next) : next.AllGuarded := by
  cases ran with
  | same => exact all
  | managed =>
    exact fun request call found => { all request call found with }
  | answered => exact all.append rfl rfl List.nodup_nil rfl (fun sending => by cases sending)
  | @begun req slaves _ duplicates slavesOf =>
    have apart : slaves.Nodup := by
      refine (quiet duplicates slaves ?_).2
      rw [slavesOf]
      rfl
    exact all.append rfl rfl apart rfl (fun sending => by cases sending)
  | full _ found stage => exact all.turnedAway found (.inl stage) _
  | mixed _ found stage => exact all.turnedAway found (.inr stage) _
  | @checked request call _ found stage =>
    have guarded := all request call found
    have unsent := guarded.early (.inl stage)
    refine all.keepCall found rfl rfl rfl rfl guarded.fits (fun _ => unsent) (fun owes => ?_)
    exact absurd owes (Call.not_owes_of_unsent unsent (fun sending => by cases sending))
  | inserted _ found _ fresh => exact all.inserted found fresh rfl rfl
  | @finished request call _ found =>
    have guarded := all request call found
    refine all.keepCall found rfl rfl rfl rfl guarded.fits (fun early => ?_) (fun owes => ?_)
    · rcases early with bad | bad <;> cases bad
    · rcases owes with unacked | ⟨sending, -⟩
      · exact .inl unacked
      · cases sending
  | sent found stage more => exact all.sent found stage more
  | @failed request call slave clean found stage more clears =>
    obtain ⟨node, waiting, -⟩ := (all request call found).node_of_more stage more
    exact all.failed found stage more (quiet.resolve_left Bool.false_ne_true call found) rfl
      (clearWaitnode_some clears waiting)
  | @late request place call _ _ found =>
    have guarded := all request call found
    exact all.keepCall found rfl rfl rfl rfl guarded.fits_withFate guarded.early_withFate
      Call.owes_of_withFate
  | marked found _ _ waiting => exact all.marked found waiting quiet rfl rfl
  | @completed request place call _ slave node found out slaveAt waiting last =>
    have mine : node.request = request := quiet node (nodeOf_eq found waiting)
    rw [mine, post_withCall]
    exact all.completed found quiet (vouched.all_acked found out slaveAt waiting last mine)
      rfl rfl
  | @timedOut request place call clean found out clears =>
    -- a packet that is out has its node, so this timeout does not happen
    obtain ⟨node, waiting, -⟩ := (all request call found).node
      (.inl ⟨.outstanding, List.mem_of_getElem? out, by decide⟩)
    rw [nodeOf_none found quiet] at waiting
    cases waiting
  | @refused request place call found out =>
    have guarded := all request call found
    have owed : call.Owes := .inl ⟨.outstanding, List.mem_of_getElem? out, by decide⟩
    exact all.keepCall found rfl rfl rfl rfl guarded.fits_withFate guarded.early_withFate
      (fun _ => owed)

/-! ### The numbers -/

/-- The number that an acknowledgement lowers is that of the node it completes. -/
theorem Drains.counts_step {ip : UInt64} {event : DupEvent} (drains : server.Drains)
    (quiet : Quiet ip server event) (ran : Step ip server event next) :
    Counts next.nodes WaitNode.bucketNumber next.packetsMgr.bucketCount := by
  have counts := drains.counts
  cases ran with
  | same | managed | answered | begun | full | checked | mixed | finished | sent | late
  | refused => exact counts
  | failed _ _ _ clears | timedOut _ _ clears =>
    obtain ⟨-, rfl⟩ | ⟨node, waiting, rfl⟩ := WaitManager.clearWaitnode_cases clears
    · exact counts
    · exact counts.erase waiting
  | @inserted request call _ found _ fresh =>
    have counted : Counts (server.nodes.insert call.packetId
        (call.kind.waitNode call.result call.bucketNumber request call.slaves))
        WaitNode.bucketNumber _ := counts.insert fresh
    rw [WriteKind.waitNode_bucketNumber] at counted
    exact counted
  | marked _ _ _ waiting => exact counts.replace waiting rfl
  | @completed request place call _ slave node found _ _ waiting =>
    have mine : node.request = request := quiet node (nodeOf_eq found waiting)
    obtain ⟨owner, ownerFound, -, bucket, -⟩ := drains.vouched.node waiting
    rw [mine, found] at ownerFound
    cases ownerFound
    have counted := counts.erase waiting
    rw [bucket] at counted
    exact counted

theorem Drains.step {ip : UInt64} {server next : DupServer} {event : DupEvent}
    (drains : server.Drains) (quiet : Quiet ip server event)
    (ran : DupServer.step ip server event = .ok next) : next.Drains :=
  ⟨drains.vouched.step quiet.narrow ran, drains.counts_step quiet (step_cases ran),
    drains.guarded.step drains.vouched quiet (step_cases ran)⟩

/-- In a quiet run a bucket is handed over when all packets of its writes have been
acknowledged. -/
theorem acknowledged_at_finishMigrate {localIp : UInt64} {manager : TairManager}
    {server : DupServer}
    (reached : Reached (DupServer.step localIp) (Quiet localIp) (start manager) server)
    {bucketNumber : Nat} (handsOver : Quiet localIp server (.finishMigrate bucketNumber))
    {request : Nat} {call : Call} (found : server.calls[request]? = some call)
    (bucket : call.bucketNumber = bucketNumber) : ∀ fate ∈ call.fates, fate = .acknowledged := by
  have drains : server.Drains :=
    reached.invariant Drains (.start manager) (fun drains quiet stepped =>
      drains.step quiet stepped)
  intro fate listed
  by_contra unacked
  obtain ⟨node, waiting, mine⟩ := (drains.guarded request call found).node
    (.inl ⟨fate, listed, unacked⟩)
  obtain ⟨owner, ownerFound, -, same, -⟩ := drains.vouched.node waiting
  rw [mine, found] at ownerFound
  cases ownerFound
  exact drains.counts.group_ne handsOver waiting (same.trans bucket)

def migrating (localIp : UInt64) (source dest : List UInt64) : Except Fault DupServer :=
  (fun manager => start manager.startMigration.doRun) <$>
    TairManager.started.updateServerTable localIp
      ⟨(source ++ dest).toArray, tairConfigMinVersion, #[], source.length, 1⟩

theorem acknowledged_at_finishMigrate_pair :
    ∃ manager server call, Reached (DupServer.step 1) (Quiet 1) (start manager) server ∧
        Quiet 1 server (.finishMigrate 0) ∧ server.calls[0]? = some call ∧
        call.bucketNumber = 0 ∧ call.fates.length = 2 ∧
        ∀ fate ∈ call.fates, fate = .acknowledged := by
  obtain ⟨begun, server, mapped, reached, handsOver, call, found, bucket, both⟩ :
      ∃ begun server, migrating 1 [1, 2, 3] [4, 2, 3] = .ok begun ∧
      Reached (DupServer.step 1) (Quiet 1) begun server ∧ Quiet 1 server (.finishMigrate 0) ∧
        ∃ call, server.calls[0]? = some call ∧ call.bucketNumber = 0 ∧ call.fates.length = 2 :=
    exists_reached (.write (.stored .put) :: List.replicate 5 (.proceed 0 true) ++
      [.acknowledge 0 0, .acknowledge 0 1]) (by decide +kernel)
  obtain ⟨manager, -, rfl⟩ := ok_of_map mapped
  exact ⟨_, server, call, reached, handsOver, found, bucket, both,
    acknowledged_at_finishMigrate reached handsOver found bucket⟩

/-- One packet is outstanding, which is less than 300, and the report of the bucket goes
out. -/
theorem finishMigrate_while_outstanding :
    ∃ (manager : TairManager) (server next : DupServer) (call : Call),
      Reached (DupServer.step 1) (fun _ _ => True) (start manager) server ∧
        DupServer.step 1 server (.finishMigrate 0) = .ok next ∧
        server.manager.migrateMgr.waiting = none ∧ next.manager.migrateMgr.waiting = some 0 ∧
        server.calls[0]? = some call ∧ call.bucketNumber = 0 ∧ call.fates = [.outstanding] := by
  obtain ⟨begun, server, mapped, reached, next, stepped, before, after, call, found⟩ :
      ∃ begun server, migrating 1 [1, 2] [3, 2] = .ok begun ∧
      Reached (DupServer.step 1) (fun _ _ => True) begun server ∧
        ∃ next, DupServer.step 1 server (.finishMigrate 0) = .ok next ∧
        server.manager.migrateMgr.waiting = none ∧ next.manager.migrateMgr.waiting = some 0 ∧
        ∃ call, server.calls[0]? = some call ∧ call.bucketNumber = 0 ∧
          call.fates = [.outstanding] :=
    exists_reached (.write (.stored .put) :: List.replicate 4 (.proceed 0 true)) (by decide +kernel)
  obtain ⟨manager, -, rfl⟩ := ok_of_map mapped
  exact ⟨_, server, next, call, reached, stepped, before, after, found⟩

end DupServer

end Tair.DataServer
