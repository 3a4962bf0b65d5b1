import AgentHub.Storage.Runs.Scheduling
import AgentHub.Workspace.HoldPromise
/-!
# `hold` keeps its promise

`hold_keeps` is about every run of `hold` with its heartbeat, other owners and cancellations, whose steps are `Undisturbed`.
`hold_swallows` is a run outside them: a cancellation that comes while the exit path waits for the heartbeat is lost.
-/

namespace AgentHub.Workspace

open Lib Lib.Fence WorkspaceLeaseRepository

namespace HoldState

variable {request : HoldRequest} {tok : Nat} {held : HeldWorkspaceLease} {s s' : HoldState} {sh : HoldShared} {ev : HoldEvent}

/-! ## The owning task -/

theorem Owned.mono {l : Leased} {t t' : Instant} (h : Owned request tok t l) (ht : t ≤ t') : Owned request tok t' l :=
  ⟨h.token, h.tenant, fun hlost => (h.gone hlost).mono (utcNowText_le_iff.2 ht)⟩

theorem Holding.earliest_le (h : Holding request tok held sh) : earliest sh.now sh.beat ≤ sh.now := by
  cases hbeat : sh.beat with
  | beating lease reading => exact (h.beating hbeat).2.1
  | _ => exact le_refl sh.now

theorem Holding.unhealthy (h : Holding request tok held sh) (herror : held.heartbeatError.isSome = true) :
    sh.lost = true := by
  have hbeat := h.beat
  generalize sh.beat = beat at hbeat
  generalize held.heartbeatError = error at herror hbeat
  cases hbeat with
  | stopped hlost => exact hlost
  | _ => cases herror

/-- Unless the owning task is about to be cancelled, nobody has cancelled it and the heartbeat is well. -/
theorem Holding.quiet (h : Holding request tok held sh) (hquiet : sh.interrupt = false) :
    sh.cancelled = false ∧ held.heartbeatError = none := by
  have hboth := h.interrupt.symm.trans hquiet
  rw [Bool.or_eq_false_iff, Option.isSome_eq_false_iff, Option.isNone_iff_eq_none] at hboth
  exact hboth

theorem healthy_of {l : Leased} (here : l.held = some held) : l.healthy = held.heartbeatError.isNone := by
  rw [Leased.healthy, here]
  rfl

theorem Holding.leaving {bodyError : Option Fault} (h : Holding request tok held sh)
    (hreason : Reason sh.cancelled sh.lost bodyError) : Leaving request tok held sh.now bodyError sh.toLeased :=
  ⟨h.owned.mono h.earliest_le, h.here, h.names, h.unhealthy, hreason⟩

/-- The lease is found lost. -/
theorem Holding.loses {bodyError : Option Fault} (h : Holding request tok held sh)
    (hnot : ¬ repo.Holds held.lease sh.now sh.db) (hreason : Reason sh.cancelled true bodyError) :
    Leaving request tok held sh.now bodyError { sh.toLeased with lost := true } :=
  ⟨⟨h.owned.token, h.owned.tenant, fun _ => h.names.lost h.owned.tenant hnot⟩, h.here, h.names, fun _ => rfl, hreason⟩

theorem reason_none {c l : Bool} (hc : c = false) : Reason c l none :=
  ⟨nofun, nofun, fun _ => hc⟩

theorem reason_lost {c : Bool} {message : String} : Reason c true (some (.leaseLost message)) :=
  ⟨nofun, fun _ => rfl, nofun⟩

theorem reason_cancelled {c l : Bool} (hc : c = true) : Reason c l (some .cancelled) :=
  ⟨fun _ => hc, nofun, nofun⟩

theorem reason_other {c l : Bool} {e : Fault} (he : e.isOther = true) (hc : c = false) : Reason c l (some e) := by
  refine ⟨fun h => ?_, fun h => ?_, fun _ => hc⟩
  · cases h
    cases he
  · simp only [Option.any_some] at h
    simp [Fault.isOther, h] at he

theorem Leaving.settle {bodyError : Option Fault} (h : Leaving request tok held s.now bodyError s.toLeased)
    (hquiet : s.interrupt = false) (hbeat : s.beat.isStopped = true) : Inv request (s.settle bodyError) := by
  refine ⟨tok, held, ⟨h.owned, h.here, h.names, h.unhealthy, ?_⟩, le_refl s.now, hquiet, hbeat⟩
  cases bodyError with
  | some e => exact h.reason
  | none =>
    change Reason s.cancelled s.lost (if !s.healthy then some heartbeatFailed else none)
    cases herror : held.heartbeatError with
    | none =>
      rw [if_neg (by simp [healthy_of h.here, herror])]
      exact h.reason
    | some e =>
      have hlost : s.lost = true := h.unhealthy (by rw [herror]; rfl)
      rw [if_pos (by simp [healthy_of h.here, herror]), hlost]
      exact reason_lost

theorem Leaving.finish {bodyError : Option Fault} (h : Leaving request tok held s.now bodyError s.toLeased)
    (hquiet : s.interrupt = false) : Inv request (s.finish bodyError) := by
  unfold HoldState.finish
  split
  · next hbeat => exact h.settle hquiet hbeat
  · exact ⟨tok, held, h, rfl, fun h => by cases hquiet.symm.trans h⟩

theorem Leaving.unwind {e : Fault} (h : Leaving request tok held s.now (some e) s.toLeased) (hquiet : s.interrupt = false) :
    Inv request (s.unwind e) := by
  unfold HoldState.unwind
  split
  · next hfailed =>
    have hlost : s.lost = true := h.unhealthy (by simpa [healthy_of h.here] using hfailed.2)
    exact Leaving.finish ⟨h.owned, h.here, h.names, h.unhealthy, by rw [hlost]; exact reason_lost⟩ hquiet
  · exact h.finish hquiet

/-- The owning task raises the cancellation that waited for it, a lost lease if that was the reason. -/
theorem Holding.interrupted (h : Holding request tok held s.toHoldShared) (hinterrupt : s.interrupt = true) :
    Inv request ({ s with interrupt := false }.unwind .cancelled) := by
  unfold HoldState.unwind
  cases herror : held.heartbeatError with
  | none =>
    have hcancelled : s.cancelled = true := by simpa [herror, hinterrupt] using h.interrupt.symm
    rw [if_neg (by simp [healthy_of h.here, herror])]
    exact Leaving.finish (h.leaving (reason_cancelled hcancelled)) rfl
  | some e =>
    have hlost : s.lost = true := h.unhealthy (by rw [herror]; rfl)
    rw [if_pos (by simp [healthy_of h.here, herror])]
    exact Leaving.finish (h.leaving (by rw [hlost]; exact reason_lost)) rfl

theorem Holding.raiseIn {e : Fault} (h : Holding request tok held s.toHoldShared) (he : e.isOther = true) :
    Inv request (s.raiseIn e) := by
  have hother : e.isLeaseLost = false := by
    simp only [Fault.isOther, Bool.and_eq_true, Bool.not_eq_true'] at he
    exact he.1
  rw [HoldState.raiseIn, if_neg (by simp [hother])]
  exact ⟨tok, held, h⟩

/-! ## Transactions of the owning task -/

theorem Opening.transact {reading : Instant} (h : Opening sh) (hquiet : sh.interrupt = false)
    (hstep : HoldState.transact request ⟨sh, .acquiring reading⟩ = some s') : Inv request s' := by
  have hcancelled : sh.cancelled = false := h.interrupt.symm.trans hquiet
  simp only [HoldState.transact] at hstep
  cases hrun : (WorkspaceLeaseRepository.acquire request.key request.ownerKind request.ownerOperationId
    request.ownerProcessId request.ttlSeconds reading).run sh.db with
  | ok r =>
    obtain ⟨lease, db'⟩ := r
    rw [Tx.commit_of_ok hrun] at hstep
    cases hstep
    obtain ⟨tok, hn, htenant⟩ := acquire_ok hrun
    refine ⟨tok, ⟨congrArg some hn.token, htenant, fun hlost => ?_⟩, hn, hcancelled, hquiet, h.beatInterrupt, h.beat⟩
    cases h.lost.symm.trans hlost
  | error e =>
    rw [Tx.commit_of_error hrun] at hstep
    cases hstep
    refine ⟨⟨rfl, h.lost, h.interrupt, h.beatInterrupt, h.beat⟩, Fault.isOther_storage fun m he => ?_⟩
    exact acquire_raises _ _ _ _ _ _ m _ _ hrun he

/-- Nothing comes between the check of a lease and the start of the operation. -/
theorem Holding.enters {ttl : Int} (h : Holding request tok held sh) (hquiet : sh.interrupt = false)
    (hstep : HoldState.transact request ⟨sh, .entering ttl⟩ = some s') : Inv request s' := by
  obtain ⟨⟨db, now, held', token, cancelled, lost⟩, beat, interrupt, beatInterrupt⟩ := sh
  obtain rfl : held' = some held := h.here
  simp only [HoldState.transact] at hstep
  split at hstep
  · next r hrun =>
    cases hstep
    have hholds := h.names.holds_iff.1 (assertValidIn_ok.1 hrun).1
    refine ⟨tok, held, ⟨h.owned, h.here, h.names, h.beat, h.interrupt, h.beatInterrupt⟩, ?_, hholds⟩
    by_contra hlost
    refine hholds.not_lost ((h.owned.mono ?_).gone (Bool.eq_true_of_not_eq_false hlost))
    exact h.earliest_le
  · next e hrun =>
    cases hstep
    obtain ⟨hnot, m, rfl⟩ := assertValidIn_error hrun
    exact Leaving.unwind (h.loses hnot reason_lost) hquiet

/-- The renewal at the end of an operation whose lease held all the time. -/
theorem Holding.renews {ttl : Int} {began ended : Instant} (h : Holding request tok held sh)
    (hlost : sh.lost = false) (hbegan : Held request.owner tok (utcNowText began) (request.stored sh.db))
    (hended : Held request.owner tok (utcNowText ended) (request.stored sh.db))
    (hstep : HoldState.transact request ⟨sh, .renewing ttl began ended⟩ = some s') : Inv request s' := by
  obtain ⟨⟨db, now, held', token, cancelled, lost⟩, beat, interrupt, beatInterrupt⟩ := sh
  obtain rfl : held' = some held := h.here
  simp only [HoldState.transact] at hstep
  cases hrun : (WorkspaceLeaseRepository.runFenced held.lease (.ok ()) ttl began ended).run db with
  | ok r =>
    obtain ⟨⟨u, lease⟩, db'⟩ := r
    rw [Tx.commit_of_ok hrun] at hstep
    cases hstep
    obtain ⟨-, hn, htenant⟩ := runFenced_ok h.names hrun
    refine ⟨tok, held, { h with owned := ⟨h.owned.token, htenant, fun hl => ?_⟩, beat := h.beat }, hn⟩
    cases hlost.symm.trans hl
  | error e =>
    rw [Tx.commit_of_error hrun] at hstep
    cases hstep
    refine ⟨⟨tok, held, h⟩, Fault.isOther_storage fun m he => ?_⟩
    subst he
    exact runFenced_lost hrun ⟨h.names.holds_iff.2 hbegan, h.names.holds_iff.2 hended⟩

theorem Holding.checks (h : Holding request tok held sh) (hquiet : sh.interrupt = false)
    (hstep : HoldState.transact request ⟨sh, .checking⟩ = some s') : Inv request s' := by
  obtain ⟨⟨db, now, held', token, cancelled, lost⟩, beat, interrupt, beatInterrupt⟩ := sh
  obtain rfl : held' = some held := h.here
  simp only [HoldState.transact] at hstep
  split at hstep
  · next r hrun =>
    cases hstep
    exact Leaving.finish (h.leaving (reason_none (h.quiet hquiet).1)) hquiet
  · next e hrun =>
    cases hstep
    obtain ⟨hnot, m, rfl⟩ := assertValidIn_error hrun
    exact Leaving.unwind (h.loses hnot reason_lost) hquiet

theorem Reason.honest {c : Bool} {primaryError : Option Fault} (h : Reason c false primaryError) :
    (HoldExit.verdict primaryError none).Honest c false := by
  cases primaryError with
  | none => exact ⟨nofun, nofun, fun _ => ⟨h.other rfl, rfl⟩, nofun⟩
  | some e =>
    refine ⟨fun he => ?_, fun he hlost => ?_, nofun, fun he hother => ?_⟩
    · cases he
      exact h.cancelled rfl
    · cases he
      exact h.lost hlost
    · cases he
      exact ⟨h.other (by simp [reported, hother]), rfl⟩

/-- A lost lease is noted on an error that says as much or more. -/
theorem Reason.honest_lost {c : Bool} {primaryError : Option Fault} {message : String} (h : Reason c true primaryError)
    (hother : ∀ e, primaryError = some e → e.isOther = false) :
    (HoldExit.verdict primaryError (some (.leaseLost message))).Honest c true := by
  cases primaryError with
  | none => exact ⟨nofun, fun _ _ => rfl, nofun, fun he hother => by cases he; cases hother⟩
  | some e =>
    refine ⟨fun he => ?_, fun _ _ => rfl, nofun, fun he hother' => ?_⟩
    · cases he
      exact h.cancelled rfl
    · cases he
      cases (hother e rfl).symm.trans hother'

/-- After its transaction, a release has released the lease or found it lost. -/
theorem Leaving.releases {primaryError : Option Fault} {reading : Instant}
    (h : Leaving request tok held reading primaryError sh.toLeased) (hle : reading ≤ sh.now) (hquiet : sh.interrupt = false)
    (hbeat : sh.beat.isStopped = true) (hu : Undisturbed request ⟨sh, .releasing primaryError reading⟩ .transact)
    (hstep : HoldState.transact request ⟨sh, .releasing primaryError reading⟩ = some s') : Inv request s' := by
  obtain ⟨⟨db, now, held', token, cancelled, lost⟩, beat, interrupt, beatInterrupt⟩ := sh
  obtain rfl : held' = some held := h.here
  obtain rfl : interrupt = false := hquiet
  simp only [HoldState.transact] at hstep
  cases hrun : (WorkspaceLeaseRepository.release held.lease reading).run db with
  | ok r =>
    obtain ⟨u, db'⟩ := r
    rw [Tx.commit_of_ok hrun] at hstep
    cases hstep
    obtain ⟨hholds, htenant, hgone⟩ := release_ok h.names hrun
    obtain rfl : lost = false := by
      by_contra hlost
      exact (h.names.holds_iff.1 hholds).not_lost (h.owned.gone (Bool.eq_true_of_not_eq_false hlost))
    exact ⟨tok, h.owned.token, htenant, hgone _, hbeat, h.reason.honest⟩
  | error e =>
    rw [Tx.commit_of_error hrun] at hstep
    cases hstep
    obtain ⟨hnot, m, rfl⟩ := release_error hrun
    have hgone := (h.names.lost h.owned.tenant hnot).mono (utcNowText_le_iff.2 hle)
    have hreason : Reason cancelled true primaryError := ⟨h.reason.cancelled, fun _ => rfl, h.reason.other⟩
    have hother : ∀ e, primaryError = some e → e.isOther = false := by
      rintro e rfl
      exact Bool.eq_false_iff.2 fun hother => hnot (hu hother)
    refine ⟨tok, h.owned.token, h.owned.tenant, hgone, hbeat, ?_⟩
    cases lost <;> exact hreason.honest_lost hother

theorem Inv.transact (h : Inv request s) (hquiet : s.interrupt = false) (hu : Undisturbed request s .transact)
    (hstep : s.transact request = some s') : Inv request s' := by
  obtain ⟨sh, owner⟩ := s
  cases owner with
  | acquiring reading => exact h.1.transact hquiet hstep
  | entering ttl =>
    obtain ⟨tok, held, h⟩ := h
    exact h.enters hquiet hstep
  | renewing ttl began ended =>
    obtain ⟨tok, held, h, hlost, hbegan, hended⟩ := h
    exact h.renews hlost hbegan hended hstep
  | checking =>
    obtain ⟨tok, held, h⟩ := h
    exact h.checks hquiet hstep
  | releasing primaryError reading =>
    obtain ⟨tok, held, h, hle, -, hbeat⟩ := h
    exact h.releases hle hquiet hbeat hu hstep
  | _ => cases hstep

/-- A transaction that fails is another error, which the body may handle. -/
theorem Inv.fails {e : Fault} (h : Inv request s) (hquiet : s.interrupt = false) (he : e.isOther = true)
    (hu : Undisturbed request s (.fails e)) (hstep : s.fails e = some s') : Inv request s' := by
  obtain ⟨sh, owner⟩ := s
  cases owner with
  | acquiring reading =>
    cases hstep
    exact ⟨h.1, he⟩
  | entering ttl =>
    cases hstep
    obtain ⟨tok, held, h⟩ := h
    exact h.raiseIn he
  | renewing ttl began ended =>
    cases hstep
    obtain ⟨tok, held, h, -⟩ := h
    exact ⟨⟨tok, held, h⟩, he⟩
  | checking =>
    cases hstep
    obtain ⟨tok, held, h⟩ := h
    exact Leaving.unwind (h.leaving (reason_other he (h.quiet hquiet).1)) hquiet
  | releasing primaryError reading => exact absurd hu id
  | _ => cases hstep

/-! ## Between its awaits -/

theorem honest_cancelled {c l : Bool} {note : Option Fault} (hc : c = true) : (HoldExit.raised .cancelled note).Honest c l := by
  refine ⟨fun _ => hc, fun he hlost => ?_, nofun, fun he hother => ?_⟩
  · cases he
    cases hlost
  · cases he
    cases hother

theorem Inv.interrupted (h : Inv request s) (hinterrupt : s.interrupt = true)
    (hstep : { s with interrupt := false }.interrupted = some s') : Inv request s' := by
  obtain ⟨sh, owner⟩ := s
  cases owner with
  | acquiring reading =>
    cases hstep
    refine ⟨h.1.beat, honest_cancelled (h.1.interrupt.symm.trans hinterrupt), fun tok htok => ?_⟩
    cases h.1.token.symm.trans htok
  | acquired result =>
    cases result with
    | error e =>
      cases hstep
      refine ⟨h.1.beat, honest_cancelled (h.1.interrupt.symm.trans hinterrupt), fun tok htok => ?_⟩
      cases h.1.token.symm.trans htok
    | ok lease =>
      obtain ⟨tok, h⟩ := h
      cases h.interrupt.symm.trans hinterrupt
  | body | entering | checking =>
    cases hstep
    obtain ⟨tok, held, h⟩ := h
    exact h.interrupted hinterrupt
  | operating ttl began => cases hstep
  | renewing ttl began ended =>
    cases hstep
    obtain ⟨tok, held, h, -⟩ := h
    exact h.interrupted hinterrupt
  | renewed result =>
    cases hstep
    cases result with
    | error e =>
      obtain ⟨⟨tok, held, h⟩, -⟩ := h
      exact h.interrupted hinterrupt
    | ok lease =>
      obtain ⟨tok, held, h, -⟩ := h
      exact h.interrupted hinterrupt
  | joining bodyError =>
    obtain ⟨tok, held, h, -, -⟩ := h
    simp only [HoldState.interrupted] at hstep
    split at hstep
    · next hbeat =>
      cases hstep
      exact Leaving.settle h rfl hbeat
    · cases hstep
  | releasing primaryError reading =>
    obtain ⟨tok, held, -, -, hquiet, -⟩ := h
    cases hquiet.symm.trans hinterrupt
  | released primaryError releaseError =>
    cases hstep
    obtain ⟨tok, htok, htenant, hgone, hbeat, hhonest⟩ := h
    rw [if_pos hinterrupt] at hhonest
    refine ⟨hbeat, hhonest, fun tok' htok' => ?_⟩
    obtain rfl : tok = tok' := Option.some.inj (htok.symm.trans htok')
    exact ⟨htenant, hgone⟩
  | exited exit => cases hstep

theorem Inv.proceed (h : Inv request s) (hquiet : s.interrupt = false) (hstep : s.proceed = some s') : Inv request s' := by
  obtain ⟨sh, owner⟩ := s
  cases owner with
  | acquired result =>
    cases result with
    | error e =>
      cases hstep
      obtain ⟨h, he⟩ := h
      have hcancelled : sh.cancelled = false := h.interrupt.symm.trans hquiet
      have hhonest : (HoldExit.verdict (some e) none).Honest sh.cancelled sh.lost := by
        rw [h.lost]
        exact (reason_other he hcancelled).honest
      refine ⟨h.beat, hhonest, fun tok htok => ?_⟩
      cases h.token.symm.trans htok
    | ok lease =>
      cases hstep
      obtain ⟨tok, h⟩ := h
      have howned : Owned request tok sh.now { sh.toLeased with held := some ⟨lease, none⟩ } :=
        ⟨h.owned.token, h.owned.tenant, h.owned.gone⟩
      refine ⟨tok, ⟨lease, none⟩, howned, rfl, h.names, .sleeping, ?_, h.beatInterrupt⟩
      exact h.interrupt.trans (by rw [h.cancelled]; rfl)
  | renewed result =>
    cases result with
    | error e =>
      cases hstep
      obtain ⟨⟨tok, held, h⟩, he⟩ := h
      exact h.raiseIn he
    | ok lease =>
      obtain ⟨tok, held, h, hn⟩ := h
      obtain ⟨⟨db, now, held', token, cancelled, lost⟩, beat, interrupt, beatInterrupt⟩ := sh
      obtain rfl : held' = some held := h.here
      simp only [HoldState.proceed] at hstep
      rw [if_pos (by simp [Leased.healthy, (h.quiet hquiet).2])] at hstep
      cases hstep
      exact ⟨tok, _, ⟨h.owned.token, h.owned.tenant, h.owned.gone⟩, rfl, hn, h.beat, h.interrupt, h.beatInterrupt⟩
  | joining bodyError =>
    obtain ⟨tok, held, h, -, -⟩ := h
    simp only [HoldState.proceed] at hstep
    split at hstep
    · next hbeat =>
      cases hstep
      exact h.settle hquiet hbeat
    · cases hstep
  | released primaryError releaseError =>
    cases hstep
    obtain ⟨tok, htok, htenant, hgone, hbeat, hhonest⟩ := h
    rw [hquiet, if_neg Bool.false_ne_true] at hhonest
    refine ⟨hbeat, hhonest, fun tok' htok' => ?_⟩
    obtain rfl : tok = tok' := Option.some.inj (htok.symm.trans htok')
    exact ⟨htenant, hgone⟩
  | _ => cases hstep

theorem Inv.fence {sessionId : String} {ttl : Int} (h : Inv request s) (hquiet : s.interrupt = false)
    (hstep : s.fence sessionId ttl = some s') : Inv request s' := by
  obtain ⟨sh, owner⟩ := s
  cases owner with
  | body =>
    have hbody := h
    obtain ⟨tok, held, h⟩ := h
    obtain ⟨⟨db, now, held', token, cancelled, lost⟩, beat, interrupt, beatInterrupt⟩ := sh
    obtain rfl : held' = some held := h.here
    simp only [HoldState.fence] at hstep
    rw [if_neg (by simp [Leased.healthy, (h.quiet hquiet).2])] at hstep
    split at hstep
    · cases hstep
      exact ⟨tok, held, h⟩
    · cases hstep
      exact hbody
  | _ => cases hstep

theorem Inv.leave (h : Inv request s) (hquiet : s.interrupt = false) (hstep : s.leave request = some s') : Inv request s' := by
  obtain ⟨sh, owner⟩ := s
  cases owner with
  | body =>
    obtain ⟨tok, held, h⟩ := h
    obtain ⟨⟨db, now, held', token, cancelled, lost⟩, beat, interrupt, beatInterrupt⟩ := sh
    obtain rfl : held' = some held := h.here
    simp only [HoldState.leave] at hstep
    rw [if_neg (by simp [Leased.healthy, (h.quiet hquiet).2]), if_pos h.names.key] at hstep
    cases hstep
    exact ⟨tok, held, h⟩
  | _ => cases hstep

theorem Inv.operated {returns : Bool} (h : Inv request s) (hu : Undisturbed request s (.operated returns))
    (hstep : s.operated returns = some s') : Inv request s' := by
  obtain ⟨sh, owner⟩ := s
  cases owner with
  | operating ttl began =>
    cases hstep
    obtain ⟨tok, held, h, hlost, hbegan⟩ := h
    cases returns with
    | true => exact ⟨tok, held, h, hlost, hbegan, h.names.holds_iff.1 (hu held h.here)⟩
    | false => exact ⟨tok, held, h⟩
  | _ => cases hstep

theorem Holding.cancel (h : Holding request tok held sh) :
    Holding request tok held { sh with interrupt := true, cancelled := true } :=
  ⟨⟨h.owned.token, h.owned.tenant, h.owned.gone⟩, h.here, h.names, h.beat, rfl, h.beatInterrupt⟩

theorem Opening.cancel (h : Opening sh) : Opening { sh with interrupt := true, cancelled := true } :=
  ⟨h.token, h.lost, rfl, h.beatInterrupt, h.beat⟩

/-- An end that the cancellation comes too late for still tells of it. -/
theorem honest_late {c l : Bool} {primaryError note : Option Fault} (h : (HoldExit.verdict primaryError note).Honest c l)
    (hu : primaryError.all (!·.isOther) = true) : (HoldExit.verdict primaryError (some .cancelled)).Honest true l := by
  cases primaryError with
  | none => exact honest_cancelled rfl
  | some e =>
    refine ⟨fun _ => rfl, fun he hlost => ?_, nofun, fun he hother => ?_⟩
    · cases he
      exact h.lost rfl hlost
    · cases he
      simp [hother] at hu

theorem Inv.cancel (h : Inv request s) (hu : Undisturbed request s .cancel) (hstep : step request .cancel s = some s') :
    Inv request s' := by
  obtain ⟨sh, owner⟩ := s
  cases owner with
  | acquiring reading =>
    cases hstep
    exact ⟨h.1.cancel, h.2⟩
  | acquired result =>
    cases result with
    | error e =>
      cases hstep
      exact ⟨h.1.cancel, h.2⟩
    | ok lease => exact absurd hu id
  | body | entering | checking =>
    cases hstep
    obtain ⟨tok, held, h⟩ := h
    exact ⟨tok, held, h.cancel⟩
  | operating ttl began => cases hstep
  | renewing ttl began ended =>
    cases hstep
    obtain ⟨tok, held, h, hlost, hbegan, hended⟩ := h
    exact ⟨tok, held, h.cancel, hlost, hbegan, hended⟩
  | renewed result =>
    cases hstep
    cases result with
    | error e =>
      obtain ⟨⟨tok, held, h⟩, he⟩ := h
      exact ⟨⟨tok, held, h.cancel⟩, he⟩
    | ok lease =>
      obtain ⟨tok, held, h, hn⟩ := h
      exact ⟨tok, held, h.cancel, hn⟩
  | joining bodyError =>
    cases hstep
    obtain ⟨tok, held, h, hbeat, -⟩ := h
    have hreason : Reason true sh.lost bodyError := ⟨fun _ => rfl, h.reason.lost, fun hnot => by cases hnot.symm.trans hu⟩
    exact ⟨tok, held, ⟨⟨h.owned.token, h.owned.tenant, h.owned.gone⟩, h.here, h.names, h.unhealthy, hreason⟩, hbeat, fun _ => hu⟩
  | releasing primaryError reading => exact absurd hu id
  | released primaryError releaseError =>
    cases hstep
    obtain ⟨tok, htok, htenant, hgone, hbeat, hhonest⟩ := h
    exact ⟨tok, htok, htenant, hgone, hbeat, honest_late hhonest hu⟩
  | exited exit => cases hstep

/-! ## Runs -/

/-- Every undisturbed step of the two tasks, and of what surrounds them, keeps the invariant. -/
theorem Inv.step (httl : 1 ≤ request.ttlSeconds) (h : Inv request s) (hu : Undisturbed request s ev)
    (hstep : step request ev s = some s') : Inv request s' := by
  cases ev with
  | wait t =>
    simp only [HoldState.step] at hstep
    split at hstep
    · next hle =>
      cases hstep
      exact h.outside (outside_wait hle) fun _ => rfl
    · cases hstep
  | other call =>
    simp only [HoldState.step] at hstep
    split at hstep
    · next hcall =>
      cases hstep
      exact h.outside (outside_other hcall.2.1) fun hlocked => by cases hcall.1.symm.trans hlocked
    · cases hstep
  | cancel => exact h.cancel hu hstep
  | transact =>
    simp only [HoldState.step] at hstep
    split at hstep
    · cases hstep
    · next hquiet => exact h.transact (Bool.eq_false_iff.2 hquiet) hu hstep
  | fails e =>
    simp only [HoldState.step] at hstep
    split at hstep
    · cases hstep
    · next hquiet =>
      simp only [Bool.or_eq_true, Bool.not_eq_true', not_or, Bool.not_eq_true, Bool.not_eq_false] at hquiet
      exact h.fails hquiet.1 hquiet.2 hu hstep
  | resume =>
    simp only [HoldState.step] at hstep
    split at hstep
    · next hinterrupt => exact h.interrupted hinterrupt hstep
    · next hquiet => exact h.proceed (Bool.eq_false_iff.2 hquiet) hstep
  | fence sessionId ttl =>
    simp only [HoldState.step] at hstep
    split at hstep
    · cases hstep
    · next hquiet => exact h.fence (Bool.eq_false_iff.2 hquiet) hstep
  | operated returns => exact h.operated hu hstep
  | leave =>
    simp only [HoldState.step] at hstep
    split at hstep
    · cases hstep
    · next hquiet => exact h.leave (Bool.eq_false_iff.2 hquiet) hstep
  | throw e =>
    obtain ⟨sh, owner⟩ := s
    cases owner with
    | body =>
      simp only [HoldState.step] at hstep
      split at hstep
      · cases hstep
      · next hquiet =>
        simp only [Bool.or_eq_true, Bool.not_eq_true', not_or, Bool.not_eq_true, Bool.not_eq_false] at hquiet
        cases hstep
        obtain ⟨tok, held, h⟩ := h
        exact Leaving.unwind (h.leaving (reason_other hquiet.2 (h.quiet hquiet.1).1)) hquiet.1
    | _ => cases hstep
  | wake => exact h.heartbeat httl rfl hu hstep
  | beat => exact h.heartbeat httl rfl hu hstep
  | beatFails e => exact h.heartbeat httl rfl hu hstep
  | beatResume => exact h.heartbeat httl rfl hu hstep

theorem Inv.promise (h : Inv request s) : s.Promise request := by
  have hexit : ∀ {exit}, s.owner = .exited exit → exit.Honest s.cancelled s.lost ∧
      ∀ tok, s.token = some tok → Lost tok (utcNowText s.now) (request.stored s.db) := by
    intro exit hexited
    unfold Inv at h
    rw [hexited] at h
    exact ⟨h.2.1, fun tok htok => (h.2.2 tok htok).2⟩
  constructor
  case fenced =>
    intro began hbegan
    obtain ⟨sh, owner⟩ := s
    cases owner with
    | operating ttl began' =>
      cases hbegan
      obtain ⟨tok, held, h, -, hheld⟩ := h
      exact ⟨tok, h.owned.token, hheld⟩
    | renewing ttl began' ended =>
      cases hbegan
      obtain ⟨tok, held, h, -, hheld, -⟩ := h
      exact ⟨tok, h.owned.token, hheld⟩
    | _ => cases hbegan
  case renewal =>
    intro message howner
    unfold Inv at h
    rw [howner] at h
    cases h.2
  case returned =>
    intro hexited
    exact (hexit hexited).1.returned rfl
  case lost =>
    intro exit hexited hlost hcancelled
    have hhonest := (hexit hexited).1
    cases exit with
    | returned => cases hlost.symm.trans (hhonest.returned rfl).2
    | raised e note =>
      rcases Fault.kinds e with rfl | ⟨message, rfl⟩ | hother
      · cases hcancelled.symm.trans (hhonest.cancelled rfl)
      · exact ⟨message, note, rfl⟩
      · cases hlost.symm.trans (hhonest.other rfl hother).2
  case cancelled =>
    intro exit hexited hcancelled hlost
    have hhonest := (hexit hexited).1
    cases exit with
    | returned => cases hcancelled.symm.trans (hhonest.returned rfl).1
    | raised e note =>
      rcases Fault.kinds e with rfl | ⟨message, rfl⟩ | hother
      · exact ⟨note, rfl⟩
      · cases hlost.symm.trans (hhonest.lost rfl rfl)
      · cases hcancelled.symm.trans (hhonest.other rfl hother).1
  case both =>
    intro exit hexited hcancelled hlost
    have hhonest := (hexit hexited).1
    cases exit with
    | returned => cases hcancelled.symm.trans (hhonest.returned rfl).1
    | raised e note =>
      refine ⟨e, note, rfl, Bool.eq_false_iff.2 fun hother => ?_⟩
      cases hlost.symm.trans (hhonest.other rfl hother).2
  case onlyLost =>
    intro message note hexited
    exact (hexit hexited).1.lost rfl rfl
  case onlyCancelled =>
    intro note hexited
    exact (hexit hexited).1.cancelled rfl
  case gone =>
    intro exit tok hexited htok
    exact (hexit hexited).2 tok htok

end HoldState

/-- A run of `hold` by steps of one kind. -/
def HoldRequest.Runs (request : HoldRequest) (kind : HoldState → HoldEvent → Prop) : HoldState → HoldState → Prop :=
  Relation.ReflTransGen fun s s' => ∃ ev, kind s ev ∧ HoldState.step request ev s = some s'

/-- `hold` acquires with a positive time to live, and starts without a lease. -/
theorem start_inv {request : HoldRequest} {db : Db} {now : Instant} {s : HoldState} (h : request.start db now = .ok s) :
    1 ≤ request.ttlSeconds ∧ HoldState.Inv request s := by
  simp only [HoldRequest.start] at h
  split at h
  · cases h
  · next hinterval =>
    split at h
    · cases h
    · split at h
      · cases h
      · cases h
        refine ⟨?_, ⟨rfl, rfl, rfl, rfl, rfl⟩, le_refl now⟩
        rw [not_or, not_le, not_le] at hinterval
        have hpos : (0 : Rat) < request.ttlSeconds := hinterval.1.trans hinterval.2
        exact Int.cast_pos.1 hpos

/-! ## Runs that can be evaluated -/

namespace HoldState

/-- The steps `evs`, each of which passes the check. -/
def trace (request : HoldRequest) (check : HoldState → HoldEvent → Bool) : List HoldEvent → HoldState → Option HoldState
  | [], s => some s
  | ev :: evs, s => if check s ev then (step request ev s).bind (trace request check evs) else none

theorem runs_of_trace {request : HoldRequest} {check : HoldState → HoldEvent → Bool} {kind : HoldState → HoldEvent → Prop}
    (hcheck : ∀ s ev, check s ev = true → kind s ev) {evs : List HoldEvent} {s s' : HoldState}
    (h : trace request check evs s = some s') : request.Runs kind s s' := by
  induction evs generalizing s with
  | nil =>
    cases h
    exact .refl
  | cons ev evs ih =>
    simp only [trace] at h
    split at h
    · next hpass =>
      obtain ⟨s₁, hstep, htail⟩ := Option.bind_eq_some_iff.1 h
      exact .head ⟨ev, hcheck s ev hpass, hstep⟩ (ih htail)
    · cases h

/-- Undisturbed whatever the database is. -/
def calm (s : HoldState) : HoldEvent → Bool
  | .transact =>
    match s.owner with
    | .releasing (some _) _ => false
    | _ => true
  | .cancel | .fails _ | .operated _ | .beat | .beatFails _ => false
  | _ => true

theorem undisturbed_of_calm {request : HoldRequest} (s : HoldState) (ev : HoldEvent) (h : s.calm ev = true) :
    s.Undisturbed request ev := by
  obtain ⟨sh, owner⟩ := s
  cases ev with
  | cancel | fails | operated | beat | beatFails => cases h
  | transact =>
    cases owner with
    | releasing primaryError reading =>
      cases primaryError with
      | none => trivial
      | some e => cases h
    | _ => trivial
  | _ => trivial

end HoldState

def sampleHold : HoldRequest := ⟨"s", "agent_task", "hold", 1, 30, none⟩

/-- `hold` about to acquire a lease that nobody has had. -/
def sampleHoldStart : HoldState :=
  ⟨⟨⟨{ sampleDb with fileLocks := Table.empty }, sampleNow, none, none, false, false⟩, .stopped, false, false⟩, .acquiring sampleNow⟩

theorem sampleHold_start : sampleHold.start { sampleDb with fileLocks := Table.empty } sampleNow = .ok sampleHoldStart := by
  rw [HoldRequest.start, if_neg (by decide +kernel), if_neg (by decide +kernel), if_neg (by decide +kernel)]
  rfl

/-! ## The protocol -/

/-- `hold` keeps its promise in every state of an undisturbed run. -/
theorem hold_keeps (request : HoldRequest) (db : Db) (now : Instant) (s₀ s : HoldState) (hstart : request.start db now = .ok s₀)
    (hrun : request.Runs (HoldState.Undisturbed request) s₀ s) : s.Promise request := by
  obtain ⟨httl, hinit⟩ := start_inv hstart
  have hinv : HoldState.Inv request s := by
    induction hrun with
    | refl => exact hinit
    | tail _ hstep ih =>
      obtain ⟨ev, hu, hstep⟩ := hstep
      exact ih.step httl hu hstep
  exact hinv.promise

/-- A body that returns, and the end of `hold`. -/
def quietEnd : List HoldEvent := [.transact, .resume, .leave, .transact, .beatResume, .resume, .transact, .resume]

theorem hold_keeps_returned : ∃ s, HoldState.trace sampleHold HoldState.calm quietEnd sampleHoldStart = some s ∧
    s.owner = .exited .returned ∧ s.Promise sampleHold := by
  have hend : ((HoldState.trace sampleHold HoldState.calm quietEnd sampleHoldStart).any
      fun s => s.owner = .exited .returned) = true := by decide +kernel
  obtain ⟨s, hs, howner⟩ := (Option.any_eq_true _ _).1 hend
  refine ⟨s, hs, of_decide_eq_true howner, ?_⟩
  exact hold_keeps sampleHold _ sampleNow sampleHoldStart s sampleHold_start
    (HoldState.runs_of_trace HoldState.undisturbed_of_calm hs)

/-- A cancellation while the exit path waits for the heartbeat: `hold` returns all the same. -/
theorem hold_swallows : ¬ ∀ (request : HoldRequest) (db : Db) (now : Instant) (s₀ s : HoldState),
    request.start db now = .ok s₀ → request.Runs (fun _ _ => True) s₀ s → s.Promise request := by
  intro hclaim
  have hend : ((HoldState.trace sampleHold (fun _ _ => true)
      [.transact, .resume, .leave, .transact, .cancel, .beatResume, .resume, .transact, .resume] sampleHoldStart).any
      fun s => s.owner = .exited .returned && s.cancelled) = true := by decide +kernel
  obtain ⟨s, hs, hswallowed⟩ := (Option.any_eq_true _ _).1 hend
  rw [Bool.and_eq_true, decide_eq_true_eq] at hswallowed
  have hpromise := hclaim sampleHold _ sampleNow sampleHoldStart s sampleHold_start
    (HoldState.runs_of_trace (fun _ _ _ => trivial) hs)
  cases hswallowed.2.symm.trans (hpromise.returned hswallowed.1).1

/-- A fenced operation that outlasts its lease completes, and is reported as a lost lease. -/
example : ((HoldState.trace sampleHold (fun _ _ => true)
    [.transact, .resume, .fence "s" 30, .transact, .wait ⟨30000000, by decide⟩, .operated true, .transact] sampleHoldStart).any
    fun s => s.owner = .renewed (.error (.leaseLost "workspace lease fenced renewal was rejected"))) = true := by
  decide +kernel

end AgentHub.Workspace
