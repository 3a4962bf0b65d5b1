import AgentHub.Storage.Approvals.Subjects
/-!
# Grants are used once

A grant joins a request to the next attempt of the node that asked. No call changes what it joins, so the
attempt that consumes it is that one, and from then on the grant and its request stay as they are.
-/

namespace AgentHub

open Lib

/-- What a grant joins: its request with the task and attempt that asked, and its target with its attempt. -/
structure GrantBinding where
  request : PrivilegeRequestRow
  asker : TaskRow
  source : NodeRunRow
  task : TaskRow
  target : NodeRunRow

/-- In `db` the grant joins these rows: the target is the next attempt of the same node of the same run by the same
agent, for what was asked. -/
structure Bound (db : Db) (g : CapabilityGrantRow) (b : GrantBinding) : Prop where
  request : db.privilegeRequests.get? g.requestId = some b.request
  asker : db.tasks.get? b.request.taskId = some b.asker
  source : db.nodeRuns.get? b.request.nodeRunId = some b.source
  task : db.tasks.get? g.targetTaskId = some b.task
  target : db.nodeRuns.get? b.task.nodeRunId = some b.target
  next : (b.target.workflowRunId, b.target.nodeId, b.target.attempt) =
    (b.source.workflowRunId, b.source.nodeId, b.source.attempt + 1)
  agent : b.task.agentId = b.asker.agentId
  subject : (g.action, g.resource, g.resourceSeal) = (b.request.action, b.request.resource, b.request.resourceSeal)

structure GrantLaw (db : Db) : Prop where
  bound : ∀ g ∈ db.capabilityGrants.rows, ∃ b, Bound db g b ∧ (g.consumedAt ≠ none → b.request.status = .consumed)
  target : ∀ g ∈ db.capabilityGrants.rows, ∀ g' ∈ db.capabilityGrants.rows, g.targetTaskId = g'.targetTaskId → g = g'
  single : ∀ g ∈ db.capabilityGrants.rows, ¬ (g.consumedAt ≠ none ∧ g.revokedAt ≠ none)

/-! ## One commit -/

section
variable {K : Powers} {db db' : Db}

/-- What a grant joins is joined in every later database. -/
theorem Bound.moved {g g' : CapabilityGrantRow} {b : GrantBinding} (h : Bound db g b) (hmoves : Moves K db db')
    (hkeeps : GrantKeeps K g g') :
    ∃ b', Bound db' g' b' ∧ (b.request.status = .consumed → b'.request.status = .consumed) := by
  obtain ⟨request, hrequest, hasked⟩ := hmoves.privilegeRequests.kept _ _ h.request
  obtain ⟨asker, hasker, haskerKeeps⟩ := hmoves.tasks.kept _ _ h.asker
  obtain ⟨source, hsource, hsourceKeeps⟩ := hmoves.nodeRuns.kept _ _ h.source
  obtain ⟨task, htask, htaskKeeps⟩ := hmoves.tasks.kept _ _ h.task
  obtain ⟨target, htarget, htargetKeeps⟩ := hmoves.nodeRuns.kept _ _ h.target
  have hgrant := hkeeps.same
  have hsame := hasked.same
  have haskerSame := haskerKeeps.same
  have hsourceSame := hsourceKeeps.same
  have htaskSame := htaskKeeps.same
  have htargetSame := htargetKeeps.same
  simp only [CapabilityGrantRow.subject, Prod.mk.injEq] at hgrant
  simp only [PrivilegeRequestRow.subject, Prod.mk.injEq] at hsame
  simp only [NodeRunRow.skeleton, Prod.mk.injEq] at hsourceSame htargetSame
  simp only [Prod.mk.injEq] at haskerSame htaskSame
  obtain ⟨-, hgid, hgtarget, hgaction, hgresource, hgseal, -⟩ := hgrant
  obtain ⟨-, htaskId, hnodeId, -, haction, hresource, hseal, -⟩ := hsame
  have hnext := h.next
  have hsubject := h.subject
  simp only [Prod.mk.injEq] at hnext hsubject
  refine ⟨⟨request, asker, source, task, target⟩, ?_, fun hconsumed => ?_⟩
  · constructor
    · rw [hgid]; exact hrequest
    · rw [htaskId]; exact hasker
    · rw [hnodeId]; exact hsource
    · rw [hgtarget]; exact htask
    · rw [htaskSame.2.1]; exact htarget
    · simp only [Prod.mk.injEq]
      rw [htargetSame.2.1, htargetSame.2.2.1, htargetSame.2.2.2.2, hsourceSame.2.1, hsourceSame.2.2.1,
        hsourceSame.2.2.2.2]
      exact hnext
    · exact htaskSame.2.2.1.trans (h.agent.trans haskerSame.2.2.1.symm)
    · simp only [Prod.mk.injEq]
      rw [hgaction, hgresource, hgseal, haction, hresource, hseal]
      exact hsubject
  · exact (hasked.ended (by rw [hconsumed]; rfl)).trans hconsumed

/-- Where a grant after a commit came from. -/
theorem Moves.grant_cases (h : Moves K db db') {g' : CapabilityGrantRow} (hg' : g' ∈ db'.capabilityGrants.rows) :
    (∃ g ∈ db.capabilityGrants.rows, GrantKeeps K g g') ∨ ∃ g, NewGrant K g ∧ GrantKeeps K g g' := h.capabilityGrants.origin hg'

theorem GrantKeeps.id_eq {g g' : CapabilityGrantRow} (h : GrantKeeps K g g') : g'.id = g.id := (Prod.mk.inj h.same).1

theorem GrantKeeps.target_eq {g g' : CapabilityGrantRow} (h : GrantKeeps K g g') : g'.targetTaskId = g.targetTaskId :=
  congrArg (fun t => t.2.2.1) h.same

theorem NewGrant.unspent {g : CapabilityGrantRow} (h : NewGrant K g) : g.consumedAt = none ∧ g.revokedAt = none := by
  have hwhole := h.whole
  simp only [CapabilityGrantRow.fate, Prod.mk.injEq] at hwhole
  exact ⟨hwhole.1, hwhole.2.2.1⟩

theorem grant_of_id {g g' : CapabilityGrantRow} (hg : g ∈ db.capabilityGrants.rows) (hg' : g' ∈ db.capabilityGrants.rows)
    (hid : g.id = g'.id) : g = g' := by
  have hget := Table.get?_of_mem hg
  rw [hid, Table.get?_of_mem hg'] at hget
  exact (Option.some.inj hget).symm

/-- What keeps the law: a new grant is bound and alone with its target, there is at most one, and a grant is consumed
with its request. -/
theorem GrantLaw.moved (h : GrantLaw db) (hmoves : Moves K db db')
    (hnew : ∀ g, K.grants g → (∃ b, Bound db g b) ∧ ∀ g' ∈ db.capabilityGrants.rows, g'.targetTaskId ≠ g.targetTaskId)
    (hone : ∀ g g', K.grants g → K.grants g' → g = g')
    (hconsumed : ∀ id g', K.consumes id → db'.capabilityGrants.get? id = some g' →
      ∃ request, db'.privilegeRequests.get? g'.requestId = some request ∧ request.status = .consumed) :
    GrantLaw db' where
  bound g' hg' := by
    have hconsumes : ∀ b', Bound db' g' b' → K.consumes g'.id → b'.request.status = .consumed := by
      intro b' hb' hpower
      obtain ⟨request, hrequest, hstatus⟩ := hconsumed _ _ hpower (Table.get?_of_mem hg')
      obtain rfl := Option.some.inj (hrequest.symm.trans hb'.request)
      exact hstatus
    rcases hmoves.grant_cases hg' with ⟨g, hg, hkeeps⟩ | ⟨g, hfresh, hkeeps⟩
    · obtain ⟨b, hb, hdone⟩ := h.bound g hg
      obtain ⟨b', hb', hstays⟩ := hb.moved hmoves hkeeps
      refine ⟨b', hb', fun hc => ?_⟩
      rcases hkeeps.consumed hc with hold | hpower
      · exact hstays (hdone hold)
      · rw [← hkeeps.id_eq] at hpower
        exact hconsumes b' hb' hpower
    · obtain ⟨⟨b, hb⟩, -⟩ := hnew g hfresh.power
      obtain ⟨b', hb', -⟩ := hb.moved hmoves hkeeps
      refine ⟨b', hb', fun hc => ?_⟩
      rcases hkeeps.consumed hc with hold | hpower
      · exact absurd hfresh.unspent.1 hold
      · rw [← hkeeps.id_eq] at hpower
        exact hconsumes b' hb' hpower
  target g₁' h₁' g₂' h₂' hsame := by
    -- The targets are those of the rows they came from, which are then one row.
    apply grant_of_id h₁' h₂'
    rcases hmoves.grant_cases h₁' with ⟨g₁, h₁, hk₁⟩ | ⟨g₁, h₁, hk₁⟩ <;>
      rcases hmoves.grant_cases h₂' with ⟨g₂, h₂, hk₂⟩ | ⟨g₂, h₂, hk₂⟩ <;>
      rw [hk₁.target_eq, hk₂.target_eq] at hsame <;> rw [hk₁.id_eq, hk₂.id_eq]
    · rw [h.target g₁ h₁ g₂ h₂ hsame]
    · exact absurd hsame ((hnew g₂ h₂.power).2 g₁ h₁)
    · exact absurd hsame.symm ((hnew g₁ h₁.power).2 g₂ h₂)
    · rw [hone g₁ g₂ h₁.power h₂.power]
  single := hmoves.capabilityGrants.inv h.single (fun g hg hboth => hboth.1 hg.unspent.1) fun _ _ hkeeps => hkeeps.single

end

/-! ## One call -/

/-- The call may insert the grant. -/
def StoreCall.Issuing (db : Db) (g : CapabilityGrantRow) : StoreCall → Prop
  | .createGrant grant expiresAt rid _ => ∃ source target, ApprovalRepository.Issues db grant rid source target ∧
    g = ApprovalRepository.grantRow grant source.request (utcNowText expiresAt)
  | _ => False

/-- The call may consume the grant. -/
def StoreCall.Consuming (grantId : String) : StoreCall → Prop
  | .consumeGrant id _ _ _ _ => id = grantId
  | _ => False

/-- The powers of a call over grants. -/
def StoreCall.granting (repo : ApprovalRepository) (db : Db) (call : StoreCall) : Powers :=
  { Powers.all repo.K with grants := fun g => call.Issuing db g, consumes := fun id => call.Consuming id }

theorem StoreCall.uses_granting (repo : ApprovalRepository) (now : Instant) (db : Db) (call : StoreCall) :
    call.Uses (call.granting repo db) now db := by
  cases call with
  | run call => exact call.uses_of (fun _ => trivial) (fun _ => trivial) (fun _ => trivial) db
  | createApproval approval key => cases approval <;> trivial
  | decide request => exact fun _ _ _ => ⟨trivial, fun _ _ => trivial⟩
  | transition => exact fun _ => trivial
  | createGrant => exact fun source target hissues => ⟨source, target, hissues, rfl⟩
  | consumeGrant => exact fun _ _ _ => rfl
  | _ => trivial

namespace ApprovalRepository

theorem grantTarget_some {db : Db} {taskId : String} {target : GrantTarget} (h : grantTarget db taskId = some target) :
    db.tasks.get? taskId = some target.task ∧ db.nodeRuns.get? target.task.nodeRunId = some target.node ∧
      db.workflowRuns.get? target.node.workflowRunId = some target.run := by
  simp only [grantTarget, WorkflowRunRepository.nodeWithRun, Option.bind_eq_some_iff, Option.map_eq_some_iff] at h
  obtain ⟨task, htask, _, ⟨node, hnode, run, hrun, rfl⟩, rfl⟩ := h
  exact ⟨htask, hnode, hrun⟩

theorem grantSource_some {db : Db} {requestId : String} {source : GrantSource} (h : grantSource db requestId = some source) :
    db.privilegeRequests.get? requestId = some source.request ∧ db.tasks.get? source.request.taskId = some source.task ∧
      db.nodeRuns.get? source.request.nodeRunId = some source.node := by
  simp only [grantSource, Option.bind_eq_some_iff, Option.map_eq_some_iff] at h
  obtain ⟨request, hrequest, task, htask, node, hnode, rfl⟩ := h
  exact ⟨hrequest, htask, hnode⟩

/-- A grant as it is created is bound. -/
theorem Issues.bound {db : Db} {grant : CapabilityGrant} {rid : String} {source : GrantSource} {target : GrantTarget}
    (h : Issues db grant rid source target) (expiresAt : String) :
    Bound db (grantRow grant source.request expiresAt) ⟨source.request, source.task, source.node, target.task, target.node⟩ := by
  obtain ⟨hrequest, hasker, hsource⟩ := grantSource_some h.named
  obtain ⟨htask, htarget, hrun⟩ := grantTarget_some h.found
  have hsame : target.node.workflowRunId = source.node.workflowRunId :=
    (Table.get?_key hrun).symm.trans (h.run.2.trans h.run.1.symm)
  refine ⟨hrequest, hasker, hsource, htask, htarget, ?_, h.fits.2.2, ?_⟩
  · rw [hsame, h.fits.1, h.fits.2.1]
  · unfold grantRow
    rw [h.asked.1, h.asked.2]

end ApprovalRepository

/-- A grant that a call inserts is bound, and alone with its target. -/
theorem StoreCall.Issuing.fits {call : StoreCall} {db : Db} {g : CapabilityGrantRow} (h : call.Issuing db g) :
    (∃ b, Bound db g b) ∧ ∀ g' ∈ db.capabilityGrants.rows, g'.targetTaskId ≠ g.targetTaskId := by
  cases call with
  | createGrant grant expiresAt rid taskId =>
    obtain ⟨source, target, hissues, rfl⟩ := h
    exact ⟨⟨_, hissues.bound _⟩, hissues.alone⟩
  | _ => exact h.elim

theorem StoreCall.Issuing.unique {call : StoreCall} {db : Db} {g g' : CapabilityGrantRow} (h : call.Issuing db g)
    (h' : call.Issuing db g') : g = g' := by
  cases call with
  | createGrant grant expiresAt rid taskId =>
    obtain ⟨source, target, hissues, rfl⟩ := h
    obtain ⟨source', target', hissues', rfl⟩ := h'
    rw [Option.some.inj (hissues.named.symm.trans hissues'.named)]
  | _ => exact h.elim

section
variable {repo : ApprovalRepository} {ord : RowOrder} {lease : MasterLease} {now : Instant} {call : StoreCall} {db db' : Db}
  {u : Unit}

/-- A call that may consume a grant and returned has consumed it, with its request. -/
theorem StoreCall.consuming_leaves {id : String} (hconsuming : call.Consuming id)
    (h : (call.op repo ord lease now).run db = .ok (u, db')) :
    ∃ use lock, ApprovalRepository.Consumable db id now use lock ∧
      db'.capabilityGrants.get? id = some { use.grant with
        consumedAt := some (utcNowText now), consumedFencingToken := some lock.fencingToken } ∧
      ∃ request, db'.privilegeRequests.get? use.grant.requestId = some request ∧ request.status = .consumed := by
  cases call with
  | consumeGrant grantId taskId action resource ws =>
    obtain rfl : grantId = id := hconsuming
    obtain ⟨_, hrun⟩ := void_ok h
    exact ApprovalRepository.consumeGrant_ok hrun
  | _ => exact hconsuming.elim

theorem GrantLaw.returned (hlaw : GrantLaw db) (h : (call.op repo ord lease now).run db = .ok (u, db')) : GrantLaw db' := by
  apply hlaw.moved (StoreCall.moves rfl (StoreCall.uses_granting repo now db call) h)
  · exact fun g hg => hg.fits
  · exact fun g g' hg hg' => hg.unique hg'
  · intro id g' hconsuming hget
    obtain ⟨use, lock, -, hwritten, request, hrequest, hstatus⟩ := StoreCall.consuming_leaves hconsuming h
    obtain rfl := Option.some.inj (hwritten.symm.trans hget)
    exact ⟨request, hrequest, hstatus⟩

end

theorem GrantLaw.step {repo : ApprovalRepository} {db db' : Db} (h : GrantLaw db) (hstep : StoreStep repo db db') :
    GrantLaw db' := by
  cases hstep with
  | call i =>
    unfold StoreInvocation.commit
    rcases Tx.commit_cases (i.call.op repo i.ord i.lease i.now) db with hs | ⟨_, hrun⟩
    · rw [hs]
      exact h
    · exact h.returned hrun
  | other hsame =>
    have hmoves : Moves (.all repo.K) db db' := hsame.moves
    obtain ⟨hbound, htarget, hsingle⟩ := h
    rw [← hsame.capabilityGrants] at hbound htarget hsingle
    refine ⟨fun g hg => ?_, htarget, hsingle⟩
    obtain ⟨b, hb, hdone⟩ := hbound g hg
    obtain ⟨b', hb', hstays⟩ := hb.moved hmoves (refl_of (GrantKeeps _) g)
    exact ⟨b', hb', fun hc => hstays (hdone hc)⟩

/-! ## Consumption -/

/-- What held when a grant was consumed: it was unspent and in force, its request approved with an approval in force, its
target the running next attempt of a running run, whose lease on the session was valid. -/
structure Consumption (db : Db) (now : Instant) (g : CapabilityGrantRow) (b : GrantBinding) (run : WorkflowRunRow)
    (approval : ApprovalRow) (lock : FileLockRow) : Prop where
  bound : Bound db g b
  unspent : g.consumedAt = none ∧ g.revokedAt = none ∧ utcNowText now < g.expiresAt
  request : b.request.status = .approved
  approved : approval ∈ db.approvals.rows ∧ approval.privilegeRequestId = some b.request.id ∧ approval.status = .approved ∧
    utcNowText now < approval.expiresAt
  ofRun : db.workflowRuns.get? b.source.workflowRunId = some run
  running : b.target.status = .running ∧ run.status = .running ∧ run.cancelRequestedAt = none
  locked : db.fileLocks.get? (integrationResource run.sessionId) = some lock
  held : lock.ownerKind = "agent_task" ∧ lock.ownerOperationId = b.task.id ∧ lock.releasedAt = none ∧
    utcNowText now < lock.leaseExpiresAt

/-- A grant consumed at a time in `db`, by the fence it records. -/
def ConsumedIn (db : Db) (now : Instant) (g g' : CapabilityGrantRow) : Prop :=
  ∃ b run approval lock, Consumption db now g b run approval lock ∧ g'.consumedAt = some (utcNowText now) ∧
    g'.consumedFencingToken = some lock.fencingToken ∧ g'.revokedAt = none

namespace ApprovalRepository

/-- Under the law, the rows of the join are the ones the grant binds. -/
theorem Consumable.consumption {db : Db} (hlaw : GrantLaw db) {id : String} {now : Instant} {use : GrantUse}
    {lock : FileLockRow} (h : Consumable db id now use lock) : use.grant ∈ db.capabilityGrants.rows ∧ use.grant.id = id ∧
      ∃ b run approval, Consumption db now use.grant b run approval lock := by
  have hfound := h.found
  simp only [grantUse, WorkflowRunRepository.nodeWithRun, Option.bind_eq_some_iff, Option.map_eq_some_iff] at hfound
  obtain ⟨g, hg, request, hrequest, _, ⟨node, hnode, run, hrun, rfl⟩, approval, happroval, target, htarget, huse⟩ := hfound
  subst huse
  obtain ⟨htask, htargetNode, htargetRun⟩ := grantTarget_some htarget
  have hmem := Table.mem_of_get? hg
  obtain ⟨b, hb, -⟩ := hlaw.bound g hmem
  obtain rfl := Option.some.inj (hrequest.symm.trans hb.request)
  obtain hsource := Option.some.inj (hnode.symm.trans hb.source)
  obtain hsame := Option.some.inj (htask.symm.trans hb.task)
  rw [hsame] at htargetNode
  obtain hsame' := Option.some.inj (htargetNode.symm.trans hb.target)
  rw [hsame'] at htargetRun
  have hnext := hb.next
  simp only [Prod.mk.injEq] at hnext
  rw [hnext.1] at htargetRun
  have hrunning := h.running
  dsimp only at hrunning
  rw [hsame'] at hrunning
  refine ⟨hmem, Table.get?_key hg, b, target.run, approval, ?_⟩
  constructor
  · exact hb
  · exact h.unspent
  · exact h.approved.1
  · exact ⟨List.mem_of_find?_eq_some happroval, by simpa using List.find?_some happroval, h.approved.2⟩
  · exact htargetRun
  · exact ⟨hrunning.2.2, hrunning.2.1, hrunning.1⟩
  · exact h.locked
  · rw [Table.get?_key hb.task]
    exact h.held

end ApprovalRepository

section
variable {repo : ApprovalRepository} {db db' : Db}

/-- The grant was consumed before, and is as it was. -/
def ConsumedBefore (db : Db) (g' : CapabilityGrantRow) : Prop :=
  ∃ g ∈ db.capabilityGrants.rows, g.id = g'.id ∧ g'.fate = g.fate

theorem ConsumedIn.of_fate {now : Instant} {g g' g'' : CapabilityGrantRow} (h : ConsumedIn db now g g')
    (hfate : g''.fate = g'.fate) : ConsumedIn db now g g'' := by
  simp only [CapabilityGrantRow.fate, Prod.mk.injEq] at hfate
  obtain ⟨b, run, approval, lock, hconsumption, hat, htoken, hrevoked⟩ := h
  exact ⟨b, run, approval, lock, hconsumption, hfate.1.trans hat, hfate.2.1.trans htoken, hfate.2.2.1.trans hrevoked⟩

/-- A grant that is consumed after a call was so before it, or the call consumed it. -/
theorem GrantLaw.consumed_cases (hlaw : GrantLaw db) (i : StoreInvocation) {g' : CapabilityGrantRow}
    (hg' : g' ∈ (i.commit repo db).2.capabilityGrants.rows) (hc : g'.consumedAt ≠ none) :
    ConsumedBefore db g' ∨ ∃ g ∈ db.capabilityGrants.rows, g.id = g'.id ∧ ConsumedIn db i.now g g' := by
  unfold StoreInvocation.commit at hg'
  rcases Tx.commit_cases (i.call.op repo i.ord i.lease i.now) db with hs | ⟨_, hrun⟩
  · rw [hs] at hg'
    exact .inl ⟨g', hg', rfl, rfl⟩
  have hmoves := StoreCall.moves rfl (StoreCall.uses_granting repo i.now db i.call) hrun
  have hconsumed : i.call.Consuming g'.id → ∃ g ∈ db.capabilityGrants.rows, g.id = g'.id ∧ ConsumedIn db i.now g g' := by
    intro hconsuming
    obtain ⟨use, lock, hconsumable, hwritten, -⟩ := StoreCall.consuming_leaves hconsuming hrun
    obtain ⟨hmem, hid, b, run, approval, hconsumption⟩ := hconsumable.consumption hlaw
    obtain rfl := Option.some.inj (hwritten.symm.trans (Table.get?_of_mem hg'))
    exact ⟨use.grant, hmem, rfl, b, run, approval, lock, hconsumption, rfl, rfl, hconsumable.unspent.2.1⟩
  rcases hmoves.grant_cases hg' with ⟨g, hg, hkeeps⟩ | ⟨g, hfresh, hkeeps⟩
  · rcases hkeeps.consumed hc with hold | hconsuming
    · exact .inl ⟨g, hg, hkeeps.id_eq.symm, hkeeps.spent (.inl hold)⟩
    · rw [← hkeeps.id_eq] at hconsuming
      exact .inr (hconsumed hconsuming)
  · rcases hkeeps.consumed hc with hold | hconsuming
    · exact absurd hfresh.unspent.1 hold
    · rw [← hkeeps.id_eq] at hconsuming
      exact .inr (hconsumed hconsuming)

theorem GrantLaw.run (hlaw : GrantLaw db) (hrun : StoreRun repo db db') : GrantLaw db' :=
  Tx.inv_of_steps (fun _ _ h hstep => h.step hstep) hrun hlaw

/-- A call of the run consumed the grant. -/
def ConsumedDuring (repo : ApprovalRepository) (db db' : Db) (g' : CapabilityGrantRow) : Prop :=
  ∃ mid, ∃ i : StoreInvocation, StoreRun repo db mid ∧ StoreRun repo (i.commit repo mid).2 db' ∧
    ∃ g ∈ mid.capabilityGrants.rows, g.id = g'.id ∧ ConsumedIn mid i.now g g'

theorem consumedAt_of_fate {g g' : CapabilityGrantRow} (h : g'.fate = g.fate) : g'.consumedAt = g.consumedAt :=
  congrArg Prod.fst h

/-- Every grant that a run leaves consumed was so at its start, or one of its calls consumed it. -/
theorem GrantLaw.history (hlaw : GrantLaw db) (hrun : StoreRun repo db db') {g' : CapabilityGrantRow}
    (hg' : g' ∈ db'.capabilityGrants.rows) (hc : g'.consumedAt ≠ none) :
    ConsumedBefore db g' ∨ ConsumedDuring repo db db' g' := by
  induction hrun generalizing g' with
  | refl => exact .inl ⟨g', hg', rfl, rfl⟩
  | @tail mid db' hrun hstep ih =>
    have hbefore : ConsumedBefore mid g' → ConsumedBefore db g' ∨ ConsumedDuring repo db db' g' := by
      rintro ⟨g, hg, hid, hfate⟩
      have hconsumed : g.consumedAt ≠ none := by
        rw [← consumedAt_of_fate hfate]
        exact hc
      rcases ih hg hconsumed with ⟨g₀, hg₀, hid₀, hfate₀⟩ | ⟨m, i, hm, hafter, g₀, hg₀, hid₀, hin⟩
      · exact .inl ⟨g₀, hg₀, hid₀.trans hid, hfate.trans hfate₀⟩
      · exact .inr ⟨m, i, hm, hafter.tail hstep, g₀, hg₀, hid₀.trans hid, hin.of_fate hfate⟩
    cases hstep with
    | call i =>
      rcases (hlaw.run hrun).consumed_cases i hg' hc with hold | hnow
      · exact hbefore hold
      · exact .inr ⟨mid, i, hrun, .refl, hnow⟩
    | other hsame =>
      rw [hsame.capabilityGrants] at hg'
      exact hbefore ⟨g', hg', rfl, rfl⟩

/-- A consumed grant stays as it is, and its request stays consumed. -/
theorem GrantLaw.consumed_stays (hlaw : GrantLaw db) (hrun : StoreRun repo db db') {g : CapabilityGrantRow}
    (hg : g ∈ db.capabilityGrants.rows) (hc : g.consumedAt ≠ none) :
    ∃ g' ∈ db'.capabilityGrants.rows, g'.subject = g.subject ∧ g'.fate = g.fate ∧
      ∃ request, db'.privilegeRequests.get? g'.requestId = some request ∧ request.status = .consumed := by
  obtain ⟨g', hg', hkeeps⟩ := hrun.moves.capabilityGrants.kept _ _ (Table.get?_of_mem hg)
  have hmem := Table.mem_of_get? hg'
  have hfate := hkeeps.spent (.inl hc)
  have hc' : g'.consumedAt ≠ none := by
    rw [consumedAt_of_fate hfate]
    exact hc
  obtain ⟨b, hb, hdone⟩ := (hlaw.run hrun).bound g' hmem
  exact ⟨g', hmem, hkeeps.same, hfate, b.request, hb.request, hdone hc'⟩

end

/-! ## Runs -/

/-- A database without grants obeys the law. -/
theorem GrantLaw.fresh {db : Db} (h : db.capabilityGrants.rows = []) : GrantLaw db where
  bound g hg := by rw [h] at hg; cases hg
  target g hg := by rw [h] at hg; cases hg
  single g hg := by rw [h] at hg; cases hg

/-! ## A sample grant -/

open ApprovalRepository (sampleApprovals)

/-- The node runs of the sample run, its write superseded by a second attempt. -/
def retryRows : List NodeRunRow :=
  let write := sampleGraph.nodes.filter fun n => n.id = "write"
  (sampleGraph.nodes.map sampleNodeRun).map (fun r => if r.nodeId = "write" then { r with status := .superseded } else r) ++
    write.map fun n => { sampleNodeRun n with id := "retry", attempt := 2 }

def sampleAsked : PrivilegeRequestRow where
  id := "q"
  taskId := "t"
  nodeRunId := "rwrite"
  action := "edit_project_config"
  resource := "a"
  resourceSeal := ⟨some ApprovalRepository.sealSchema, []⟩
  effectiveRisk := .l2
  status := .approved
  createdAt := ""

/-- The sample run with an approved request, and the next attempt of its node pending. -/
def retryDb : Db := { sampleDb with
  workflowRuns := ⟨[{ sampleRunRow with status := .running }], List.nodup_singleton "r", List.nodup_singleton "r"⟩
  nodeRuns := ⟨retryRows, by decide, by decide⟩
  tasks := ⟨[⟨"t", "rwrite", "g", "0", none, none, .cancelled, "", none⟩,
    ⟨"tretry", "retry", "g", "0", none, none, .pending, "", none⟩], by decide, by decide⟩
  approvals := ⟨[⟨"first", "r", "rwrite", .privilegeRequest, none, some "q", "subject", none, none, "e", .l2, [], .approved,
    2, some "user", some "key", none, "0002", some "", ""⟩], by decide, by decide⟩
  privilegeRequests := ⟨[sampleAsked], by decide, by decide⟩
  fileLocks := ⟨[⟨"session:s:integration", "agent_task", "tretry", 1, 1, "", "", "0002", none⟩], by decide, by decide⟩ }

/-- Create the grant of the sample request, claim its target, and consume it. -/
def sampleUse : List StoreCall :=
  [.createGrant ⟨"grant", "q", "tretry", .editProjectConfig, "a"⟩ ⟨1, one_lt_maxMicros⟩ "r" "t", .run (.claimNext "r"),
    .consumeGrant "grant" "tretry" .editProjectConfig "a"
      (some ⟨"session:s:integration", "agent_task", "tretry", 1, 1, "", "", "0002"⟩)]

def usedDb : Db := sampleUse.foldl (fun db call => ((sampleInvocation call).commit sampleApprovals db).2) retryDb

theorem retryDb_lawful : GrantLaw retryDb := .fresh rfl

end AgentHub
