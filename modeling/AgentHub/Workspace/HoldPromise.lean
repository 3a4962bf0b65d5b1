import AgentHub.Workspace.HoldTask
/-!
# What `hold` promises

What is promised of a fenced operation, of the way `hold` ends and of the lease it leaves behind (`Promise`), the steps that
may be taken for it (`Undisturbed`), and the invariant behind it. What happens outside the owning task keeps the invariant:
time, other owners (`Inv.outside`) and the heartbeat (`Inv.heartbeat`).
-/

namespace AgentHub.Workspace

open Lib Lib.Fence WorkspaceLeaseRepository

variable (request : HoldRequest)

/-- The lease that is stored for the resource. -/
def HoldRequest.stored (db : Db) : Option (Cell Owner String) := repo.stored db request.key

/-- When the fenced operation began that is under way. -/
def OwnerAt.began : OwnerAt → Option Instant
  | .operating _ began | .renewing _ began _ => some began
  | _ => none

/-- A cancellation or a lost lease, which the end of `hold` reports in any case. -/
def reported (bodyError : Option Fault) : Bool := bodyError.any (!·.isOther)

namespace HoldExit

/-- An exit tells of a cancellation `c` and of a lost lease `l`. -/
structure Honest (c l : Bool) (exit : HoldExit) : Prop where
  cancelled {note : Option Fault} (h : exit = .raised .cancelled note) : c = true
  lost {e : Fault} {note : Option Fault} (h : exit = .raised e note) (he : e.isLeaseLost = true) : l = true
  returned (h : exit = .returned) : c = false ∧ l = false
  other {e : Fault} {note : Option Fault} (h : exit = .raised e note) (he : e.isOther = true) : c = false ∧ l = false

end HoldExit

namespace HoldState

/-- The promise, in one state. -/
structure Promise (s : HoldState) : Prop where
  /-- From its start to its end, nobody takes the lease from a fenced operation. -/
  fenced {began : Instant} (h : s.owner.began = some began) :
    ∃ tok, s.token = some tok ∧ Held request.owner tok (utcNowText began) (request.stored s.db)
  /-- An operation that completed under its lease is not reported as a lost lease. -/
  renewal (message : String) : s.owner ≠ .renewed (.error (.leaseLost message))
  /-- `hold` returns if its lease stayed valid and nobody cancelled it. -/
  returned (h : s.owner = .exited .returned) : s.cancelled = false ∧ s.lost = false
  /-- A lost lease is LeaseLost. -/
  lost {exit : HoldExit} (h : s.owner = .exited exit) (hlost : s.lost = true) (hcancelled : s.cancelled = false) :
    ∃ message note, exit = .raised (.leaseLost message) note
  /-- A cancellation is CancelledError. -/
  cancelled {exit : HoldExit} (h : s.owner = .exited exit) (hcancelled : s.cancelled = true) (hlost : s.lost = false) :
    ∃ note, exit = .raised .cancelled note
  /-- Both are one of the two, and either is only what it says. -/
  both {exit : HoldExit} (h : s.owner = .exited exit) (hcancelled : s.cancelled = true) (hlost : s.lost = true) :
    ∃ e note, exit = .raised e note ∧ e.isOther = false
  onlyLost {message : String} {note : Option Fault} (h : s.owner = .exited (.raised (.leaseLost message) note)) : s.lost = true
  onlyCancelled {note : Option Fault} (h : s.owner = .exited (.raised .cancelled note)) : s.cancelled = true
  /-- Afterwards the lease that was acquired is released or no longer valid. -/
  gone {exit : HoldExit} {tok : Nat} (h : s.owner = .exited exit) (htok : s.token = some tok) :
    Lost tok (utcNowText s.now) (request.stored s.db)

/-- The steps after which the promise is kept. -/
def Undisturbed (s : HoldState) : HoldEvent → Prop
  | .cancel =>
    match s.owner with
    -- the lease is there, the body that would release it is not
    | .acquired (.ok _) => False
    -- the cancellation is suppressed with that of the heartbeat
    | .joining bodyError => reported bodyError = true
    | .releasing _ _ => False
    -- it would only be noted on an error of the body
    | .released primaryError _ => primaryError.all (!·.isOther) = true
    | _ => True
  | .transact =>
    match s.owner, s.held with
    -- so would a lost lease
    | .releasing (some e) reading, some held => e.isOther = true → repo.Holds held.lease reading s.db
    | _, _ => True
  | .fails _ =>
    match s.owner with
    | .releasing _ _ => False
    | _ => True
  -- the renewal after the operation tests an expiry that nobody else can use
  | .operated true => ∀ held, s.held = some held → repo.Holds held.lease s.now s.db
  | .beat => ∀ lease reading, s.beat = .beating lease reading → (reading.addSeconds request.ttlSeconds.toNat).isSome
  | .beatFails _ => False
  | _ => True

/-! ## The invariant -/

variable {request} {tok : Nat} {held : HeldWorkspaceLease}

/-- The heartbeat of a lease that is held, with the error it has left. -/
inductive Beating (request : HoldRequest) (tok : Nat) (now : Instant) (lost : Bool) : HeartbeatAt → Option Fault → Prop
  | sleeping : Beating request tok now lost .sleeping none
  | beating {lease : WorkspaceLease} {reading : Instant} (hn : Names request.key request.owner tok lease) (hle : reading ≤ now) :
      Beating request tok now lost (.beating lease reading) none
  | beaten {lease : WorkspaceLease} (hn : Names request.key request.owner tok lease) :
      Beating request tok now lost (.beaten (.ok lease)) none
  | refused {e : Fault} (hlost : lost = true) : Beating request tok now lost (.beaten (.error e)) none
  | stopped {e : Fault} (hlost : lost = true) : Beating request tok now lost .stopped (some e)

/-- The earliest clock reading of a write to come. -/
def earliest (now : Instant) : HeartbeatAt → Instant
  | .beating _ reading => reading
  | _ => now

/-- A lease, from its acquisition to its release; at `t` and later, a lost one is gone. -/
structure Owned (request : HoldRequest) (tok : Nat) (t : Instant) (s : Leased) : Prop where
  token : s.token = some tok
  tenant : Tenant request.owner tok (request.stored s.db)
  gone (h : s.lost = true) : Lost tok (utcNowText t) (request.stored s.db)

/-- While the body runs. -/
structure Holding (request : HoldRequest) (tok : Nat) (held : HeldWorkspaceLease) (s : HoldShared) : Prop where
  owned : Owned request tok (earliest s.now s.beat) s.toLeased
  here : s.held = some held
  names : Names request.key request.owner tok held.lease
  beat : Beating request tok s.now s.lost s.beat held.heartbeatError
  interrupt : s.interrupt = (s.cancelled || held.heartbeatError.isSome)
  beatInterrupt : s.beatInterrupt = false

/-- What an error of the body says of the lease and of a cancellation. -/
structure Reason (c l : Bool) (bodyError : Option Fault) : Prop where
  cancelled (h : bodyError = some .cancelled) : c = true
  lost (h : bodyError.any Fault.isLeaseLost = true) : l = true
  other (h : reported bodyError = false) : c = false

/-- After the body, up to the release. -/
structure Leaving (request : HoldRequest) (tok : Nat) (held : HeldWorkspaceLease) (t : Instant) (bodyError : Option Fault)
    (s : Leased) : Prop where
  owned : Owned request tok t s
  here : s.held = some held
  names : Names request.key request.owner tok held.lease
  unhealthy (h : held.heartbeatError.isSome = true) : s.lost = true
  reason : Reason s.cancelled s.lost bodyError

/-- Before there is a lease. -/
structure Opening (s : HoldShared) : Prop where
  token : s.token = none
  lost : s.lost = false
  interrupt : s.interrupt = s.cancelled
  beatInterrupt : s.beatInterrupt = false
  beat : s.beat.isStopped = true

/-- The lease has been acquired and nobody has it yet. -/
structure Acquired (request : HoldRequest) (tok : Nat) (lease : WorkspaceLease) (s : HoldShared) : Prop where
  owned : Owned request tok s.now s.toLeased
  names : Names request.key request.owner tok lease
  cancelled : s.cancelled = false
  interrupt : s.interrupt = false
  beatInterrupt : s.beatInterrupt = false
  beat : s.beat.isStopped = true

def Inv (request : HoldRequest) (s : HoldState) : Prop :=
  match s.owner with
  | .acquiring reading => Opening s.toHoldShared ∧ reading ≤ s.now
  | .acquired (.error e) => Opening s.toHoldShared ∧ e.isOther = true
  | .acquired (.ok lease) => ∃ tok, Acquired request tok lease s.toHoldShared
  | .body | .entering _ | .checking => ∃ tok held, Holding request tok held s.toHoldShared
  | .operating _ began => ∃ tok held, Holding request tok held s.toHoldShared ∧ s.lost = false ∧
      Held request.owner tok (utcNowText began) (request.stored s.db)
  | .renewing _ began ended => ∃ tok held, Holding request tok held s.toHoldShared ∧ s.lost = false ∧
      Held request.owner tok (utcNowText began) (request.stored s.db) ∧
      Held request.owner tok (utcNowText ended) (request.stored s.db)
  | .renewed (.error e) => (∃ tok held, Holding request tok held s.toHoldShared) ∧ e.isOther = true
  | .renewed (.ok lease) => ∃ tok held, Holding request tok held s.toHoldShared ∧ Names request.key request.owner tok lease
  | .joining bodyError => ∃ tok held, Leaving request tok held s.now bodyError s.toLeased ∧ s.beatInterrupt = true ∧
      (s.interrupt = true → reported bodyError = true)
  | .releasing primaryError reading => ∃ tok held, Leaving request tok held reading primaryError s.toLeased ∧
      reading ≤ s.now ∧ s.interrupt = false ∧ s.beat.isStopped = true
  | .released primaryError releaseError => ∃ tok, s.token = some tok ∧ Tenant request.owner tok (request.stored s.db) ∧
      Lost tok (utcNowText s.now) (request.stored s.db) ∧ s.beat.isStopped = true ∧
      (HoldExit.verdict primaryError (if s.interrupt then some .cancelled else releaseError)).Honest s.cancelled s.lost
  | .exited exit => s.beat.isStopped = true ∧ exit.Honest s.cancelled s.lost ∧ ∀ tok, s.token = some tok →
      Tenant request.owner tok (request.stored s.db) ∧ Lost tok (utcNowText s.now) (request.stored s.db)

/-! ## What happens outside -/

/-- Time passes and others use the lease. -/
structure Outside (request : HoldRequest) (past : Bool) (s s' : Leased) : Prop where
  now : s.now ≤ s'.now
  held : s'.held = s.held
  token : s'.token = s.token
  cancelled : s'.cancelled = s.cancelled
  tenant {tok : Nat} (h : Tenant request.owner tok (request.stored s.db)) : Tenant request.owner tok (request.stored s'.db)
  gone {tok : Nat} {t : String} (htenant : Tenant request.owner tok (request.stored s.db))
    (h : Lost tok t (request.stored s.db)) : Lost tok t (request.stored s'.db)
  lost : s'.lost = s.lost ∨ past = false ∧ s'.lost = true ∧
    ∃ tok, s.token = some tok ∧ ∀ t, Lost tok t (request.stored s'.db)

theorem outside_wait {past : Bool} {s : Leased} {t : Instant} (ht : s.now ≤ t) : Outside request past s { s with now := t } :=
  ⟨ht, rfl, rfl, rfl, id, fun _ h => h, .inl rfl⟩

theorem superseded_lost {s : Leased} (h : s.superseded request.key = true) :
    ∃ tok, s.token = some tok ∧ ∀ t, Lost tok t (request.stored s.db) := by
  unfold Leased.superseded at h
  split at h
  · next tok row htok hrow =>
    refine ⟨tok, htok, fun t => ⟨cell row, ?_, .inl (of_decide_eq_true h)⟩⟩
    exact congrArg (Option.map cell) hrow
  · cases h

theorem outside_other {past : Bool} {s : Leased} {call : Call} (hne : call.actor ≠ request.owner) :
    Outside request past s { s with
      db := (Tx.commit (repo.exec call) s.db).2
      lost := s.lost || (!past && { s with db := (Tx.commit (repo.exec call) s.db).2 }.superseded request.key) } := by
  have hforeign : (Tx.commit (repo.exec call) s.db).2 = s.db ∨ Foreign request.owner (utcNowText (repo.last call))
      (request.stored s.db) (request.stored (Tx.commit (repo.exec call) s.db).2) := by
    rcases Tx.commit_cases (repo.exec call) s.db with hsame | ⟨_, hrun⟩
    · exact .inl hsame
    · exact .inr (foreign_of_call hne hrun request.key)
  refine ⟨le_refl s.now, rfl, rfl, rfl, fun {tok} htenant => ?_, fun {tok t} htenant hlost => ?_, ?_⟩
  · rcases hforeign with hsame | hforeign
    · simpa only [hsame] using htenant
    · exact htenant.foreign hforeign
  · rcases hforeign with hsame | hforeign
    · simpa only [hsame] using hlost
    · exact hlost.foreign htenant hforeign
  · cases past with
    | true => exact .inl (by simp)
    | false =>
      by_cases hsup : { s with db := (Tx.commit (repo.exec call) s.db).2 }.superseded request.key = true
      · exact .inr ⟨rfl, by simp [hsup], superseded_lost hsup⟩
      · exact .inl (by simp [hsup])

theorem Outside.lost_mono {past : Bool} {s s' : Leased} (ho : Outside request past s s') (h : s.lost = true) : s'.lost = true := by
  rcases ho.lost with hsame | ⟨-, hlost, -⟩
  · rw [hsame, h]
  · exact hlost

theorem Owned.outside {past : Bool} {s s' : Leased} {t t' : Instant} (h : Owned request tok t s)
    (ho : Outside request past s s') (ht : t ≤ t') : Owned request tok t' s' := by
  refine ⟨ho.token.trans h.token, ho.tenant h.tenant, fun hlost => ?_⟩
  rcases ho.lost with hsame | ⟨-, -, tok', htok', hgone⟩
  · exact (ho.gone h.tenant (h.gone (hsame.symm.trans hlost))).mono (utcNowText_le_iff.2 ht)
  · obtain rfl : tok' = tok := Option.some.inj (htok'.symm.trans h.token)
    exact hgone _

theorem Beating.mono {now now' : Instant} {lost lost' : Bool} {beat : HeartbeatAt} {error : Option Fault}
    (h : Beating request tok now lost beat error) (hnow : now ≤ now') (hlost : lost = true → lost' = true) :
    Beating request tok now' lost' beat error := by
  cases h with
  | sleeping => exact .sleeping
  | beating hn hle => exact .beating hn (le_trans hle hnow)
  | beaten hn => exact .beaten hn
  | refused h => exact .refused (hlost h)
  | stopped h => exact .stopped (hlost h)

theorem earliest_mono {now now' : Instant} (hnow : now ≤ now') (beat : HeartbeatAt) : earliest now beat ≤ earliest now' beat := by
  cases beat with
  | beating _ reading => exact le_refl reading
  | _ => exact hnow

theorem Holding.outside {s : HoldShared} {l : Leased} {past : Bool} (h : Holding request tok held s)
    (ho : Outside request past s.toLeased l) : Holding request tok held { s with toLeased := l } where
  owned := h.owned.outside ho (earliest_mono ho.now s.beat)
  here := ho.held.trans h.here
  names := h.names
  beat := h.beat.mono ho.now ho.lost_mono
  interrupt := h.interrupt.trans (congrArg (· || held.heartbeatError.isSome) ho.cancelled.symm)
  beatInterrupt := h.beatInterrupt

theorem Reason.mono {c l l' : Bool} {bodyError : Option Fault} (h : Reason c l bodyError) (hl : l = true → l' = true) :
    Reason c l' bodyError := ⟨h.cancelled, fun he => hl (h.lost he), h.other⟩

theorem Leaving.outside {s s' : Leased} {past : Bool} {t t' : Instant} {bodyError : Option Fault}
    (h : Leaving request tok held t bodyError s) (ho : Outside request past s s') (ht : t ≤ t') :
    Leaving request tok held t' bodyError s' where
  owned := h.owned.outside ho ht
  here := ho.held.trans h.here
  names := h.names
  unhealthy he := ho.lost_mono (h.unhealthy he)
  reason := ho.cancelled ▸ h.reason.mono ho.lost_mono

theorem Opening.outside {s : HoldShared} {l : Leased} {past : Bool} (h : Opening s) (ho : Outside request past s.toLeased l) :
    Opening { s with toLeased := l } where
  token := ho.token.trans h.token
  lost := by
    rcases ho.lost with hsame | ⟨-, -, tok, htok, -⟩
    · exact hsame.trans h.lost
    · cases h.token.symm.trans htok
  interrupt := h.interrupt.trans ho.cancelled.symm
  beatInterrupt := h.beatInterrupt
  beat := h.beat

/-- A lease that holds is not lost. -/
theorem not_taken {s s' : Leased} {past : Bool} {t : Instant} (hheld : Held request.owner tok (utcNowText t) (request.stored s.db))
    (htoken : s.token = some tok) (ho : Outside request past s s') (hdb : s'.db = s.db) : s'.lost = s.lost := by
  rcases ho.lost with hsame | ⟨-, -, tok', htok', hgone⟩
  · exact hsame
  · obtain rfl : tok' = tok := Option.some.inj (htok'.symm.trans htoken)
    exact absurd (hdb ▸ hgone (utcNowText t)) hheld.not_lost

/-- What happens outside keeps the invariant; while a fenced operation runs, that is time alone. -/
theorem Inv.outside {s : HoldState} {l : Leased} (h : Inv request s) (ho : Outside request s.owner.past s.toLeased l)
    (hlocked : s.owner.locked = true → l.db = s.db) : Inv request { s with toLeased := l } := by
  obtain ⟨sh, owner⟩ := s
  cases owner with
  | acquiring reading => exact ⟨h.1.outside ho, le_trans h.2 ho.now⟩
  | acquired result =>
    cases result with
    | error e => exact ⟨h.1.outside ho, h.2⟩
    | ok lease =>
      obtain ⟨tok, h⟩ := h
      exact ⟨tok, h.owned.outside ho ho.now, h.names, ho.cancelled.trans h.cancelled, h.interrupt, h.beatInterrupt, h.beat⟩
  | body | entering | checking =>
    obtain ⟨tok, held, h⟩ := h
    exact ⟨tok, held, h.outside ho⟩
  | operating ttl began =>
    obtain ⟨tok, held, h, hlost, hbegan⟩ := h
    have hkept := not_taken hbegan h.owned.token ho (hlocked rfl)
    exact ⟨tok, held, h.outside ho, hkept.trans hlost, (hlocked rfl).symm ▸ hbegan⟩
  | renewing ttl began ended =>
    obtain ⟨tok, held, h, hlost, hbegan, hended⟩ := h
    have hkept := not_taken hbegan h.owned.token ho (hlocked rfl)
    exact ⟨tok, held, h.outside ho, hkept.trans hlost, (hlocked rfl).symm ▸ hbegan, (hlocked rfl).symm ▸ hended⟩
  | renewed result =>
    cases result with
    | error e =>
      obtain ⟨⟨tok, held, h⟩, he⟩ := h
      exact ⟨⟨tok, held, h.outside ho⟩, he⟩
    | ok lease =>
      obtain ⟨tok, held, h, hn⟩ := h
      exact ⟨tok, held, h.outside ho, hn⟩
  | joining bodyError =>
    obtain ⟨tok, held, h, hstate⟩ := h
    exact ⟨tok, held, h.outside ho ho.now, hstate⟩
  | releasing primaryError reading =>
    obtain ⟨tok, held, h, hle, hstate⟩ := h
    exact ⟨tok, held, h.outside ho (le_refl reading), le_trans hle ho.now, hstate⟩
  | released primaryError releaseError =>
    obtain ⟨tok, htok, htenant, hgone, hbeat, hhonest⟩ := h
    have hlost : l.lost = sh.lost := ho.lost.resolve_right fun hnew => by cases hnew.1
    refine ⟨tok, ho.token.trans htok, ho.tenant htenant, (ho.gone htenant hgone).mono (utcNowText_le_iff.2 ho.now), hbeat, ?_⟩
    simpa only [hlost, ho.cancelled] using hhonest
  | exited exit =>
    obtain ⟨hbeat, hhonest, hgone⟩ := h
    have hlost : l.lost = sh.lost := ho.lost.resolve_right fun hnew => by cases hnew.1
    refine ⟨hbeat, by simpa only [hlost, ho.cancelled] using hhonest, fun tok htok => ?_⟩
    obtain ⟨htenant, hold⟩ := hgone tok (ho.token.symm.trans htok)
    exact ⟨ho.tenant htenant, (ho.gone htenant hold).mono (utcNowText_le_iff.2 ho.now)⟩

/-! ## The heartbeat -/

variable {s s' : HoldState} {sh : HoldShared} {ev : HoldEvent}

theorem Holding.beating {lease : WorkspaceLease} {reading : Instant} (h : Holding request tok held sh)
    (hbeat : sh.beat = .beating lease reading) : Names request.key request.owner tok lease ∧ reading ≤ sh.now ∧
      held.heartbeatError = none := by
  have hb := h.beat
  rw [hbeat] at hb
  generalize herror : held.heartbeatError = error at hb
  cases hb with
  | beating hn hle => exact ⟨hn, hle, rfl⟩

theorem Holding.wake (h : Holding request tok held s.toHoldShared) (hstep : s.wake = some s') :
    s'.owner = s.owner ∧ (s'.db = s.db ∧ s'.lost = s.lost) ∧ Holding request tok held s'.toHoldShared := by
  unfold HoldState.wake at hstep
  rw [h.here] at hstep
  split at hstep
  · next hsleep hheld =>
    cases hheld
    cases hstep
    have howned := h.owned
    have hbeat := h.beat
    rw [hsleep] at howned hbeat
    generalize herror : held.heartbeatError = error at hbeat
    cases hbeat with
    | sleeping =>
      exact ⟨rfl, ⟨rfl, rfl⟩, { h with owned := howned, beat := herror ▸ .beating h.names (le_refl s.now) }⟩
  · cases hstep

/-- A heartbeat that the database refuses has lost the lease for good. -/
theorem Holding.beats (httl : 1 ≤ request.ttlSeconds) (h : Holding request tok held s.toHoldShared)
    (hu : Undisturbed request s .beat) (hstep : s.beats request = some s') :
    s'.owner = s.owner ∧ Holding request tok held s'.toHoldShared := by
  unfold HoldState.beats at hstep
  split at hstep
  · next lease reading hbeat =>
    obtain ⟨hn, hle, herror⟩ := h.beating hbeat
    have howned := h.owned
    rw [hbeat] at howned
    cases hrun : (WorkspaceLeaseRepository.heartbeat lease request.ttlSeconds reading).run s.db with
    | ok r =>
      obtain ⟨lease', db'⟩ := r
      rw [Tx.commit_of_ok hrun] at hstep
      cases hstep
      obtain ⟨hholds, hn', htenant⟩ := heartbeat_ok hn hrun
      have hlost : s.lost = false := by
        by_contra hlost
        exact (hn.holds_iff.1 hholds).not_lost (howned.gone (Bool.eq_true_of_not_eq_false hlost))
      refine ⟨rfl, { h with owned := ⟨howned.token, htenant, fun hl => ?_⟩, beat := herror ▸ .beaten hn' }⟩
      cases hlost.symm.trans ((Bool.or_false _).symm.trans hl)
    | error e =>
      rw [Tx.commit_of_error hrun] at hstep
      cases hstep
      obtain ⟨hnot, m, rfl⟩ := heartbeat_error httl (hu lease reading hbeat) hrun
      have hlost := (hn.lost howned.tenant hnot).mono (utcNowText_le_iff.2 hle)
      refine ⟨rfl, { h with owned := ⟨howned.token, howned.tenant, fun _ => hlost⟩, beat := herror ▸ .refused ?_ }⟩
      exact Bool.or_true _
  · cases hstep

theorem Holding.beatResume (h : Holding request tok held s.toHoldShared) (hstep : s.beatResume = some s') :
    s'.owner = s.owner ∧ (s'.db = s.db ∧ s'.lost = s.lost) ∧ ∃ held, Holding request tok held s'.toHoldShared := by
  obtain ⟨current, error⟩ := held
  have hgoes : ¬ s.beatInterrupt = true := by simp [h.beatInterrupt]
  have howned := h.owned
  have hbeat := h.beat
  unfold HoldState.beatResume at hstep
  rw [h.here] at hstep
  split at hstep
  · cases hstep
  · next lease held' hbeaten hheld =>
    cases hheld
    rw [if_neg hgoes] at hstep
    cases hstep
    rw [hbeaten] at howned hbeat
    cases hbeat with
    | beaten hn =>
      refine ⟨rfl, ⟨rfl, rfl⟩, ⟨lease, none⟩, ⟨⟨howned.token, howned.tenant, howned.gone⟩, rfl, hn, .sleeping, ?_, ?_⟩⟩
      · exact h.interrupt
      · exact h.beatInterrupt
  · next e held' hbeaten hheld =>
    cases hheld
    rw [if_neg hgoes] at hstep
    cases hstep
    rw [hbeaten] at howned hbeat
    cases hbeat with
    | refused hlost =>
      refine ⟨rfl, ⟨rfl, rfl⟩, ⟨current, some e⟩, ⟨⟨howned.token, howned.tenant, howned.gone⟩, rfl, h.names, .stopped hlost, ?_, ?_⟩⟩
      · exact (Bool.or_true _).symm
      · exact h.beatInterrupt
  · rw [if_neg hgoes] at hstep
    cases hstep

/-- A step of the heartbeat while the body runs. -/
theorem Holding.heartbeat (httl : 1 ≤ request.ttlSeconds) (h : Holding request tok held s.toHoldShared)
    (hev : ev.ofHeartbeat = true) (hu : Undisturbed request s ev) (hstep : step request ev s = some s') :
    s'.owner = s.owner ∧ (s.owner.locked = true → s'.db = s.db ∧ s'.lost = s.lost) ∧
      ∃ held, Holding request tok held s'.toHoldShared := by
  cases ev with
  | wake =>
    simp only [step] at hstep
    split at hstep
    · cases hstep
    · obtain ⟨howner, hdb, h⟩ := h.wake hstep
      exact ⟨howner, fun _ => hdb, held, h⟩
  | beat =>
    simp only [step] at hstep
    split at hstep
    · cases hstep
    · next hfree =>
      obtain ⟨howner, h⟩ := h.beats httl hu hstep
      exact ⟨howner, fun hlocked => absurd (by simp [hlocked]) hfree, held, h⟩
  | beatFails e => exact absurd hu id
  | beatResume =>
    simp only [step] at hstep
    split at hstep
    · cases hstep
    · obtain ⟨howner, hdb, h⟩ := h.beatResume hstep
      exact ⟨howner, fun _ => hdb, h⟩
  | _ => cases hev

theorem beat_stopped {beat : HeartbeatAt} (h : beat.isStopped = true) : beat = .stopped := by
  cases beat with
  | stopped => rfl
  | _ => cases h

/-- A heartbeat that has ended does nothing. -/
theorem stopped_heartbeat (hbeat : s.beat.isStopped = true) (hev : ev.ofHeartbeat = true) : step request ev s = none := by
  have hstopped := beat_stopped hbeat
  cases ev with
  | wake => simp [step, HoldState.wake, hstopped]
  | beat => simp [step, HoldState.beats, hstopped]
  | beatFails e => simp [step, HoldState.beatFails, hstopped]
  | beatResume => simp [step, HoldState.beatResume, hstopped]
  | _ => cases hev

/-- A heartbeat that is cancelled can only end. -/
theorem cancelled_heartbeat (hcancelled : s.beatInterrupt = true) (hev : ev.ofHeartbeat = true)
    (hstep : step request ev s = some s') : s' = { s with beat := .stopped } := by
  cases ev with
  | wake => simp [step, hcancelled] at hstep
  | beat => simp [step, hcancelled] at hstep
  | beatFails e => simp [step, hcancelled] at hstep
  | beatResume =>
    simp only [step, HoldState.beatResume, hcancelled, if_true] at hstep
    split at hstep
    · cases hstep
    · split at hstep <;> simp_all
  | _ => cases hev

theorem Inv.of_owner {owner : OwnerAt} (howner : s'.owner = owner) (h : Inv request ⟨s'.toHoldShared, owner⟩) :
    Inv request s' := by
  subst howner
  exact h

theorem Inv.heartbeat (httl : 1 ≤ request.ttlSeconds) (h : Inv request s) (hev : ev.ofHeartbeat = true)
    (hu : Undisturbed request s ev) (hstep : step request ev s = some s') : Inv request s' := by
  have hidle : s.beat.isStopped = true → Inv request s' := fun hbeat => by
    rw [stopped_heartbeat hbeat hev] at hstep
    cases hstep
  obtain ⟨sh, owner⟩ := s
  cases owner with
  | acquiring reading => exact hidle h.1.beat
  | acquired result =>
    cases result with
    | error e => exact hidle h.1.beat
    | ok lease =>
      obtain ⟨tok, h⟩ := h
      exact hidle h.beat
  | body | entering | checking =>
    obtain ⟨tok, held, h⟩ := h
    obtain ⟨howner, -, held', h'⟩ := h.heartbeat httl hev hu hstep
    exact .of_owner howner ⟨tok, held', h'⟩
  | operating ttl began =>
    obtain ⟨tok, held, h, hlost, hbegan⟩ := h
    obtain ⟨howner, hkept, held', h'⟩ := h.heartbeat httl hev hu hstep
    obtain ⟨hdb, hsame⟩ := hkept rfl
    exact .of_owner howner ⟨tok, held', h', hsame.trans hlost, hdb ▸ hbegan⟩
  | renewing ttl began ended =>
    obtain ⟨tok, held, h, hlost, hbegan, hended⟩ := h
    obtain ⟨howner, hkept, held', h'⟩ := h.heartbeat httl hev hu hstep
    obtain ⟨hdb, hsame⟩ := hkept rfl
    exact .of_owner howner ⟨tok, held', h', hsame.trans hlost, hdb ▸ hbegan, hdb ▸ hended⟩
  | renewed result =>
    cases result with
    | error e =>
      obtain ⟨⟨tok, held, h⟩, he⟩ := h
      obtain ⟨howner, -, held', h'⟩ := h.heartbeat httl hev hu hstep
      exact .of_owner howner ⟨⟨tok, held', h'⟩, he⟩
    | ok lease =>
      obtain ⟨tok, held, h, hn⟩ := h
      obtain ⟨howner, -, held', h'⟩ := h.heartbeat httl hev hu hstep
      exact .of_owner howner ⟨tok, held', h', hn⟩
  | joining bodyError =>
    obtain ⟨tok, held, h, hbeat, hinterrupt⟩ := h
    rw [cancelled_heartbeat hbeat hev hstep]
    exact ⟨tok, held, h, hbeat, hinterrupt⟩
  | releasing primaryError reading =>
    obtain ⟨tok, held, -, -, -, hbeat⟩ := h
    exact hidle hbeat
  | released primaryError releaseError =>
    obtain ⟨tok, -, -, -, hbeat, -⟩ := h
    exact hidle hbeat
  | exited exit => exact hidle h.1

end HoldState

end AgentHub.Workspace
