import AgentHub.Lib.Contract
import AgentHub.Storage.Runs.Merge
import AgentHub.Workspace.Locks
/-!
# Contracts under a workspace lease

The operations on a lease write `file_locks` and nothing else, so `hold` and `run_fenced` keep whatever those writes
keep. What `hold` then promises is what its body promises.
-/

namespace AgentHub

open Lib

/-! ## Leases -/

namespace WorkspaceLeaseRepository

section
variable {T : Db → Db → Prop} [IsPreorder Db T]

theorem expiryText_within (now : Instant) (ttl : Int) : Tx.Within T (expiryText now ttl) :=
  .bind (.ensure _ _) fun _ => .bind (.require _ _) fun _ => .pure _

theorem assertValidIn_within (lease : WorkspaceLease) (now : Instant) : Tx.Within T (assertValidIn lease now) :=
  .bind (TableRef.select_within _) fun _ => .ensure _ _

variable (hset : ∀ db t, T db (Db.fileLocksT.set db t))
include hset

omit [IsPreorder Db T] in
theorem release_within (lease : WorkspaceLease) (now : Instant) : Tx.Within T (release lease now) :=
  TableRef.cas_within hset

theorem runFenced_within {α : Type} (lease : WorkspaceLease) (operation : Except StorageError α) (ttl : Int)
    (now renewedAt : Instant) : Tx.Within T (runFenced lease operation ttl now renewedAt) := by
  refine .bind (assertValidIn_within _ _) fun _ => .bind ?_ fun _ => .bind (expiryText_within _ _) fun _ => ?_
  · intro db a db' h
    cases operation with
    | error e => cases h
    | ok a' =>
      cases h
      exact refl_of T db
  · refine .bind (TableRef.cas_within hset) fun _ => .bind (TableRef.select_within _) fun _ => ?_
    exact .bind (.require _ _) fun _ => .pure _

theorem acquire_within (key kind operation : String) (pid ttl : Int) (now : Instant) :
    Tx.Within T (acquire key kind operation pid ttl now) := by
  refine .bind (.ensure _ _) fun _ => .bind (.ensure _ _) fun _ => .bind (.ensure _ _) fun _ => .bind (.ensure _ _) fun _ => ?_
  refine .bind (expiryText_within _ _) fun _ => .bind (TableRef.select_within _) fun row => .bind ?_ fun _ => ?_
  · cases row with
    | none => exact TableRef.insert_within hset
    | some row =>
      refine .ite (.bind (.ensure _ _) fun _ => ?_) ?_
      · exact .bind (TableRef.update_within hset) fun _ => .pure _
      · exact .bind (TableRef.update_within hset) fun _ => .pure _
  · exact .bind (TableRef.select_within _) fun _ => .bind (.require _ _) fun _ => .pure _

end

end WorkspaceLeaseRepository

namespace Workspace

variable {W : Type}

/-- The lease of a coroutine is kept alive within `R`, and its transactions move the world as they move the database. -/
structure Coroutines.Keeps (C : Coroutines W) (T : Db → Db → Prop) (R : W → W → Prop) : Prop where
  transaction {α : Type} {op : Instant → Op α} (h : ∀ now, Tx.Within T (op now)) : Stays R (C.transaction op)
  locks (db : Db) (t) : T db (Db.fileLocksT.set db t)
  startHeartbeat (lease : WorkspaceLease) (w : W) : R w (C.startHeartbeat lease w)
  setLease (lease : WorkspaceLease) (w : W) : R w (C.setLease lease w)
  stopHeartbeat (w : W) : R w (C.stopHeartbeat w)

section
variable {R : W → W → Prop} {α : Type}

theorem onHost_ok {x : EStateM Failure W α} {w w' : W} {a : α} (h : onHost x w = .ok a w') : x w = .ok a w' := by
  unfold onHost at h
  cases hx : x w with
  | ok a' w₁ =>
    rw [hx] at h
    cases h
    rfl
  | error e w₁ =>
    rw [hx] at h
    cases h

theorem onHost_stays {x : EStateM Failure W α} (h : Stays R x) : Stays R (onHost x) := by
  intro w
  have hw := h w
  unfold onHost
  cases hx : x w <;> rw [hx] at hw <;> exact hw

theorem modify_stays {f : W → W} (h : ∀ w, R w (f w)) : Stays R (modify f : EStateM Fault W PUnit) := h

end

namespace LockManager

variable {C : Coroutines W} {T : Db → Db → Prop} {R : W → W → Prop} {α : Type}

theorem renew_within [IsPreorder Db T] (hC : C.Keeps T R) (lease : WorkspaceLease) (ttl : Int) (now : Instant) :
    Tx.Within T (renew lease ttl now) :=
  .bind (WorkspaceLeaseRepository.runFenced_within hC.locks _ _ _ _ _) fun _ => .pure _

section
variable [IsPreorder W R]

theorem current_stays : Stays R (current C) := fun w => refl_of R w

theorem assertHealthy_stays : Stays R (assertHealthy C) := .bind current_stays fun _ => .ite (.throw _) (.pure _)

theorem resourceKey_stays (sessionId : String) : Stays R (resourceKey sessionId : EStateM Fault W String) :=
  .ite (.pure _) (.throw _)

theorem assertSession_stays (lease : WorkspaceLease) (sessionId : String) :
    Stays R (assertSession lease sessionId : EStateM Fault W Unit) :=
  .bind (resourceKey_stays _) fun _ => .ite (.throw _) (.pure _)

theorem assertValid_stays [IsPreorder Db T] (hC : C.Keeps T R) (sessionId : String) : Stays R (assertValid C sessionId) :=
  .bind current_stays fun _ => .bind (assertSession_stays _ _) fun _ =>
    hC.transaction fun now => WorkspaceLeaseRepository.assertValidIn_within _ now

theorem release_stays (hC : C.Keeps T R) : Stays R (release C) :=
  .bind current_stays fun _ => hC.transaction fun now => WorkspaceLeaseRepository.release_within hC.locks _ now

theorem acquire_stays [IsPreorder Db T] (hC : C.Keeps T R) (request : HoldRequest) : Stays R (acquire C request) :=
  .bind (resourceKey_stays _) fun _ =>
    .ite (.throw _) (hC.transaction fun now => WorkspaceLeaseRepository.acquire_within hC.locks _ _ _ _ _ now)

/-- A fenced operation that returned ran between states that the fence did not touch. -/
theorem runFenced_ok [IsPreorder Db T] (hC : C.Keeps T R) {sessionId : String} {ttl : Int}
    {operation : EStateM Failure W α} {w w' : W} {a : α} (h : runFenced C sessionId ttl operation w = .ok a w') :
    ∃ w₁ w₂, R w w₁ ∧ operation w₁ = .ok a w₂ ∧ R w₂ w' := by
  obtain ⟨_, v₁, hhealthy, h₁⟩ := bind_eq_ok.1 h
  obtain ⟨held, v₂, hheld, h₂⟩ := bind_eq_ok.1 h₁
  obtain ⟨_, v₃, hsession, h₃⟩ := bind_eq_ok.1 h₂
  obtain ⟨_, w₁, hvalid, h₄⟩ := bind_eq_ok.1 h₃
  obtain ⟨result, w₂, hrun, h₅⟩ := bind_eq_ok.1 h₄
  obtain ⟨renewed, v₄, hrenewed, h₆⟩ := bind_eq_ok.1 h₅
  obtain ⟨_, v₅, hset, h₇⟩ := bind_eq_ok.1 h₆
  obtain ⟨_, v₆, hlast, hend⟩ := bind_eq_ok.1 h₇
  cases hend
  refine ⟨w₁, w₂, ?_, onHost_ok hrun, ?_⟩
  · have hfence := (hC.transaction fun now => WorkspaceLeaseRepository.assertValidIn_within held.lease now).ok hvalid
    refine trans_of R (assertHealthy_stays.ok hhealthy) (trans_of R (current_stays.ok hheld) ?_)
    exact trans_of R ((assertSession_stays _ _).ok hsession) hfence
  · have hrenew := (hC.transaction (renew_within hC held.lease ttl)).ok hrenewed
    refine trans_of R hrenew (trans_of R ((modify_stays (hC.setLease renewed)).ok hset) ?_)
    exact assertHealthy_stays.ok hlast

end

/-- What a fenced operation keeps, `run_fenced` keeps. -/
theorem runFenced_stays [IsPreorder Db T] {R' : W → W → Prop} [IsPreorder W R'] (hC : C.Keeps T R)
    (hR : ∀ w w', R w w' → R' w w') {sessionId : String} {ttl : Int} {operation : EStateM Failure W α}
    (h : Stays R' operation) : Stays R' (runFenced C sessionId ttl operation) := by
  refine .bind assertHealthy_stays fun _ => .bind current_stays fun held => .bind (assertSession_stays _ _) fun _ => ?_
  refine .bind ((hC.transaction fun now => WorkspaceLeaseRepository.assertValidIn_within _ now).mono hR) fun _ => ?_
  refine .bind (onHost_stays h) fun result => .bind ((hC.transaction (renew_within hC _ _)).mono hR) fun renewed => ?_
  refine .bind (modify_stays fun w => hR _ _ (hC.setLease _ w)) fun _ => .bind assertHealthy_stays fun _ => .pure _

/-! ## Holding -/

section
variable {P : W → Prop} {Q : α → W → Prop} {E : Fault → W → Prop}

/-- What `hold` needs of a contract: `R` carries it along, an error may come late or be a cancellation renamed. -/
structure Holdable (R : W → W → Prop) (P : W → Prop) (Q : α → W → Prop) (E : Fault → W → Prop) : Prop where
  before {w w' : W} (h : P w) (hR : R w w') : P w'
  after {a : α} {w w' : W} (h : Q a w) (hR : R w w') : Q a w'
  raised {e : Fault} {w w' : W} (h : E e w) (hR : R w w') : E e w'
  early {w : W} (e : Fault) (h : P w) : E e w
  late {a : α} {w : W} (e : Fault) (h : Q a w) : E e w
  renamed {e : Fault} {w : W} (h : E .cancelled w) : E e w

/-- What runs after the body. -/
theorem Holdable.tail (hH : Holdable R P Q E) {β : Type} {x : EStateM Fault W β} (hx : Stays R x) (a : α) :
    Triple (Q a) x (fun _ => Q a) E := by
  intro w hQ
  have hR := hx w
  cases hrun : x w <;> rw [hrun] at hR
  · exact hH.after hQ hR
  · exact hH.late _ (hH.after hQ hR)

variable [IsPreorder W R]

theorem guarded_triple [IsPreorder Db T] (hC : C.Keeps T R) (hH : Holdable R P Q E)
    {body : EStateM Fault W α} (hbody : Triple P body Q E) (sessionId : String) : Triple P (guarded C sessionId body) Q E := by
  have hinner : Triple P (do
      let a ← body
      assertHealthy C
      assertValid C sessionId
      pure a) Q E := by
    refine hbody.bind fun a => (hH.tail assertHealthy_stays a).bind fun _ => ?_
    exact (hH.tail (assertValid_stays hC sessionId) a).bind fun _ => .pure fun _ h => h
  intro w hP
  have hends := hinner w hP
  unfold guarded
  rw [run_bind]
  unfold outcome
  generalize (do
      let a ← body
      assertHealthy C
      assertValid C sessionId
      pure a : EStateM Fault W α) w = r at hends ⊢
  cases r with
  | ok a w' => exact hends
  | error e w' =>
    dsimp only
    rw [run_bind]
    unfold current
    dsimp only
    split
    · next hcancel =>
      rw [hcancel.1] at hends
      exact hH.renamed hends
    · exact hends

theorem finish_error (hC : C.Keeps T R) (hH : Holdable R P Q E) (e : Fault) :
    Triple (E e) (finish C (.error e : Except Fault α)) Q E := by
  refine Triple.bind (Q := fun _ => E e) (fun w hE => hH.raised hE (hC.stopHeartbeat w)) fun _ => ?_
  refine Triple.bind (Q := fun _ => E e) (fun w hE => ?_) fun _ => .throw fun _ h => h
  have hrel := (release_stays hC).outcome w
  unfold outcome at hrel ⊢
  cases hx : release C w <;> rw [hx] at hrel <;> exact hH.raised hE hrel

theorem finish_ok (hC : C.Keeps T R) (hH : Holdable R P Q E) (a : α) : Triple (Q a) (finish C (.ok a)) Q E := by
  refine Triple.bind (Q := fun _ => Q a) (fun w hQ => hH.after hQ (hC.stopHeartbeat w)) fun _ => ?_
  refine Triple.bind (hH.tail assertHealthy_stays.outcome a) fun late => ?_
  refine Triple.bind (hH.tail (release_stays hC).outcome a) fun released => ?_
  cases late with
  | error e => exact .throw fun _ h => hH.late e h
  | ok _ =>
    cases released with
    | error e => exact .throw fun _ h => hH.late e h
    | ok _ => exact .pure fun _ h => h

theorem hold_triple [IsPreorder Db T] (hC : C.Keeps T R) (hH : Holdable R P Q E)
    {body : EStateM Fault W α} (hbody : Triple P body Q E) (request : HoldRequest) : Triple P (hold C request body) Q E := by
  refine .ite (fun _ => .throw fun _ h => hH.early _ h) fun _ => ?_
  have hacquire : Triple P (acquire C request) (fun _ => P) E :=
    (Triple.of_stays (acquire_stays hC request) fun _ _ => hH.before).weaken (fun _ h => h) (fun _ _ h => h)
      fun e _ h => hH.early e h
  refine hacquire.bind fun lease => Triple.bind (Q := fun _ => P) (fun w hP => ?_) fun _ => ?_
  · exact hH.before hP (hC.startHeartbeat lease w)
  · intro w hP
    have hends := guarded_triple hC hH hbody request.sessionId w hP
    rw [run_bind]
    unfold outcome
    cases hx : guarded C request.sessionId body w with
    | ok a w' =>
      rw [hx] at hends
      exact finish_ok hC hH a w' hends
    | error e w' =>
      rw [hx] at hends
      exact finish_error hC hH e w' hends

/-- What the body of `hold` keeps, `hold` keeps. -/
theorem hold_stays [IsPreorder Db T] (hC : C.Keeps T R) {body : EStateM Fault W α} (hbody : Stays R body)
    (request : HoldRequest) : Stays R (hold C request body) := by
  intro w
  have hH : Holdable R (R w) (fun (_ : α) => R w) fun _ => R w :=
    ⟨trans_of R, trans_of R, trans_of R, fun _ h => h, fun _ h => h, fun h => h⟩
  have hends := hold_triple hC hH (.of_stays hbody fun _ _ => trans_of R) request w (refl_of R w)
  cases hrun : hold C request body w <;> rw [hrun] at hends <;> exact hends

end

end LockManager

end Workspace

end AgentHub
