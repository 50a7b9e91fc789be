import Wirestead.Transport.Reconnection.TcpAttempts
import Wirestead.Transport.Reconnection.UdsAttempts

/-! # Where the two clients agree

Without a policy both count alike. A policy is told the failure by the TCP client only.
-/
namespace Wirestead.Transport
open TcpClient (ErrorInfo decideReconnect)

/-- Both clients decide alike, ask the policy at the same points with the same attempt
number, and tell it of the failure that is decided. -/
structure SameDecisions (tcp uds : List Verdict) (outcomes : List Outcome) : Prop where
  decision : tcp.map Verdict.decision = uds.map Verdict.decision
  attempt : tcp.map (·.call.map PolicyCall.attempt) = uds.map (·.call.map PolicyCall.attempt)
  report : ∀ v o, (v,o) ∈ tcp.zip outcomes ∨ (v,o) ∈ uds.zip outcomes →
    ∀ call ∈ v.call, call.code = o.code ∧ call.retryable = true

section Comparison
variable {settings settings' : TcpClient.Settings} {report report' : Outcome → ℕ → ErrorInfo} {next next' : ℕ → ℕ}

theorem decisions_nil (n : ℕ) : decisions settings report next n [] = [] := rfl

/-- Without retries the first failure ends the run, and no policy is asked. -/
theorem decisions_zero (h : settings.maxRetries = 0) (n : ℕ) (outcomes : List Outcome) :
    decisions settings report next n outcomes = (outcomes.take 1).map (fun _ => ⟨.gaveUp,none⟩) := by
  cases outcomes with
  | nil => rfl
  | cons o outcomes =>
    have hr : Refuses settings.maxRetries (report o (o.attempts n)) (o.attempts n) := Or.inr (Or.inl h)
    unfold decisions
    dsimp only
    rw [decideReconnect_eq, if_pos hr, policyCalled, if_pos hr]
    rfl

/-- Without a policy only the number of attempts counts, and it is the same while it is
bounded. -/
theorem decisions_eq (hs : settings.maxRetries = settings'.maxRetries) (hp : settings.reconnectPolicy = none)
    (hp' : settings'.reconnectPolicy = none) (hr : ∀ o n, (report o n).retryable = true)
    (hr' : ∀ o n, (report' o n).retryable = true) (hnext : ∀ n, next n = n + 1)
    (hnext' : ∀ n : ℕ, (n : ℤ) < settings.maxRetries → next' n = n + 1) {n n' : ℕ} (outcomes : List Outcome)
    (hn : settings.maxRetries > 0 → n = n' ∧ (n : ℤ) ≤ settings.maxRetries) :
    decisions settings report next n outcomes = decisions settings' report' next' n' outcomes := by
  induction outcomes generalizing n n' with
  | nil => rfl
  | cons o outcomes ih =>
    have ho : settings.maxRetries > 0 → o.attempts n = o.attempts n' ∧ (o.attempts n : ℤ) ≤ settings.maxRetries := by
      intro hpos
      cases o with
      | lost e loss => exact ⟨rfl,hpos.le⟩
      | refused e => exact hn hpos
      | timedOut => exact hn hpos
    have hiff : Refuses settings.maxRetries (report o (o.attempts n)) (o.attempts n) ↔
        Refuses settings'.maxRetries (report' o (o.attempts n')) (o.attempts n') := by
      unfold Refuses
      rw [hr, hr', ← hs]
      refine or_congr Iff.rfl (or_congr Iff.rfl (and_congr_right ?_))
      intro hpos
      rw [(ho hpos).1]
    unfold decisions
    dsimp only
    rw [decideReconnect_eq, decideReconnect_eq, policyCalled, policyCalled, hp, hp']
    by_cases hrefuse : Refuses settings.maxRetries (report o (o.attempts n)) (o.attempts n)
    · rw [if_pos hrefuse, if_pos hrefuse, if_pos (hiff.mp hrefuse), if_pos (hiff.mp hrefuse)]
      rfl
    · rw [if_neg hrefuse, if_neg hrefuse, if_neg (mt hiff.mpr hrefuse), if_neg (mt hiff.mpr hrefuse)]
      refine congrArg (_ :: ·) (ih ?_)
      intro hpos
      have hlt : (o.attempts n : ℤ) < settings.maxRetries := by
        by_contra hge
        exact hrefuse (Or.inr (Or.inr ⟨hpos,by omega⟩))
      rw [hnext, ← (ho hpos).1, hnext' _ hlt]
      exact ⟨rfl,by push_cast; omega⟩

/-- Without a policy there is nothing to ask. -/
theorem decisions_calls (hp : settings.reconnectPolicy = none) (n : ℕ) (outcomes : List Outcome) :
    ∀ v ∈ decisions settings report next n outcomes, v.call = none := by
  induction outcomes generalizing n with
  | nil => exact fun _ hv => by cases hv
  | cons o outcomes ih =>
    intro v hv
    unfold decisions at hv
    rcases List.mem_cons.mp hv with rfl | hrest
    · dsimp only
      rw [policyCalled, hp]
      split <;> rfl
    · split at hrest
      · exact ih _ v hrest
      · cases hrest

/-- The first failure is put to the policy as the client reports it. -/
theorem decisions_head (h0 : settings.maxRetries ≠ 0) (hr : ∀ o n, (report o n).retryable = true)
    {policy : ErrorInfo → ℕ → Bool} (hp : settings.reconnectPolicy = some policy) (o : Outcome)
    (outcomes : List Outcome) :
    ∃ v rest, decisions settings report next 0 (o :: outcomes) = v :: rest ∧
      v.call = some ⟨(report o 0).code,true,0⟩ := by
  have ho : o.attempts 0 = 0 := by cases o <;> rfl
  have hrefuse : ¬Refuses settings.maxRetries (report o 0) 0 := by
    rintro (h | h | h)
    · rw [hr] at h
      cases h
    · exact h0 h
    · push_cast at h
      omega
  refine ⟨_,_,rfl,?_⟩
  dsimp only
  rw [ho, policyCalled, if_neg hrefuse, hp, hr]
  rfl

end Comparison

theorem Outcome.code_ne_success (o : Outcome) : o.code ≠ .success := by
  cases o with
  | refused e => exact e.code_ne_success
  | timedOut => exact fun h => by cases h
  | lost e loss => exact e.code_ne_success

theorem TcpClient.State.report_retryable (o : Outcome) (n : ℕ) : (TcpClient.State.report o n).retryable = true := by
  cases o with
  | refused e => exact e.tcp
  | timedOut => rfl
  | lost e loss => exact e.tcp

theorem TcpClient.State.nextAttempt_none {settings : TcpClient.Settings} (h : settings.reconnectPolicy = none) (n : ℕ) :
    TcpClient.State.nextAttempt settings n = n + 1 := by
  simp [TcpClient.State.nextAttempt, h]

theorem attempt_mod (maxRetries : Int32) {n : ℕ} (hn : (n : ℤ) < maxRetries.toInt) : (n + 1) % 2 ^ 32 = n + 1 := by
  have hbound := maxRetries.toInt_lt
  exact Nat.mod_eq_of_lt (by omega)

/-- A client without TLS. -/
def TcpClient.Config.plaintext (cfg : TcpClient.Config) : TcpClient.Config := { cfg with tlsEnabled := false }

/-- The UDS client makes up the error that it puts to a policy, so the clients agree only
where no policy is asked. -/
theorem same_reconnect_decisions_iff (N : Type*) [CommRing N] (cfg : TcpClient.Config) (maxRetries : Int32)
    (policy : Option (ErrorInfo → ℕ → Bool)) (idleTimeoutMs : ℕ) (idleTimeoutAction : TcpClient.IdleTimeoutAction)
    (outcomes : List Outcome) :
    SameDecisions
      ((TcpClient.State.started cfg.plaintext ⟨maxRetries.toInt,policy,idleTimeoutMs,idleTimeoutAction⟩ :
        TcpClient.State N).verdicts cfg.plaintext 1 outcomes)
      ((UdsClient.State.started ⟨maxRetries.toInt,policy⟩).verdicts 1 outcomes) outcomes ↔
      policy = none ∨ maxRetries.toInt = 0 ∨ outcomes = [] := by
  rw [TcpClient.State.verdicts_eq (TcpClient.State.started_attempting cfg.plaintext _) rfl,
    UdsClient.State.verdicts_eq (UdsClient.State.started_running _)]
  constructor
  · intro h
    by_contra hcond
    obtain ⟨hpolicy,hrest⟩ := not_or.mp hcond
    obtain ⟨hzero,hne⟩ := not_or.mp hrest
    obtain ⟨p,rfl⟩ := Option.ne_none_iff_exists'.mp hpolicy
    obtain ⟨o,rest,rfl⟩ := List.exists_cons_of_ne_nil hne
    -- the UDS client puts the first failure to the policy without its code
    obtain ⟨v,vs,hvs,hcall⟩ : ∃ v vs, decisions ⟨maxRetries.toInt,some p,0,.close⟩
        (fun _ _ => UdsClient.State.dummyError) (fun n => (n + 1) % 2 ^ 32) 0 (o :: rest) = v :: vs ∧
        v.call = some ⟨.success,true,0⟩ := decisions_head hzero (fun _ _ => rfl) rfl o rest
    have hreport := h.report v o (Or.inr (by rw [hvs]; exact List.mem_cons_self)) _ hcall
    exact o.code_ne_success hreport.1.symm
  · rintro (rfl | hzero | rfl)
    · have heq : decisions ⟨maxRetries.toInt,none,idleTimeoutMs,idleTimeoutAction⟩ TcpClient.State.report
          (TcpClient.State.nextAttempt ⟨maxRetries.toInt,none,idleTimeoutMs,idleTimeoutAction⟩) 0 outcomes =
          decisions ⟨maxRetries.toInt,none,0,.close⟩ (fun _ _ => UdsClient.State.dummyError)
            (fun n => (n + 1) % 2 ^ 32) 0 outcomes := by
        apply decisions_eq
        · rfl
        · rfl
        · rfl
        · exact TcpClient.State.report_retryable
        · exact fun _ _ => rfl
        · exact TcpClient.State.nextAttempt_none rfl
        · exact fun n hn => attempt_mod maxRetries hn
        · exact fun hpos => ⟨rfl,hpos.le⟩
      rw [heq]
      refine ⟨rfl,rfl,?_⟩
      intro v o hmem call hcall
      have hv : v ∈ decisions ⟨maxRetries.toInt,none,0,.close⟩ (fun _ _ => UdsClient.State.dummyError)
          (fun n => (n + 1) % 2 ^ 32) 0 outcomes := by
        rcases hmem with hmem | hmem
        · exact (List.of_mem_zip hmem).1
        · exact (List.of_mem_zip hmem).1
      rw [decisions_calls rfl 0 outcomes v hv] at hcall
      cases hcall
    · rw [decisions_zero hzero, decisions_zero hzero]
      refine ⟨rfl,rfl,?_⟩
      intro v o hmem call hcall
      have hv : v ∈ (outcomes.take 1).map (fun _ => (⟨.gaveUp,none⟩ : Verdict)) := by
        rcases hmem with hmem | hmem
        · exact (List.of_mem_zip hmem).1
        · exact (List.of_mem_zip hmem).1
      obtain ⟨_,-,rfl⟩ := List.mem_map.mp hv
      cases hcall
    · rw [decisions_nil, decisions_nil]
      exact ⟨rfl,rfl,fun v o hmem => by rcases hmem with hmem | hmem <;> cases hmem⟩

def smallConfig : TcpClient.Config := ⟨1024,false,false,TcpClient.smallest_ge,TcpClient.smallest_le⟩

/-- A policy that retries only refused connections: the TCP client tries again, the UDS
client gives up. -/
theorem clients_disagree_on_policy :
    ¬SameDecisions
      ((TcpClient.State.started smallConfig.plaintext
        ⟨-1,some (fun info _ => info.code = .connectionRefused),0,.close⟩ : TcpClient.State ℤ).verdicts
          smallConfig.plaintext 1 [.refused ⟨.connectionRefused,rfl,rfl⟩])
      ((UdsClient.State.started ⟨-1,some (fun info _ => info.code = .connectionRefused)⟩).verdicts 1
        [.refused ⟨.connectionRefused,rfl,rfl⟩]) [.refused ⟨.connectionRefused,rfl,rfl⟩] := by
  intro h
  have htls : smallConfig.plaintext.tlsEnabled = false := rfl
  have htcp := TcpClient.State.verdicts_eq (TcpClient.State.started_attempting (N := ℤ) smallConfig.plaintext
    ⟨-1,some (fun info _ => info.code = .connectionRefused),0,.close⟩) htls [.refused ⟨.connectionRefused,rfl,rfl⟩]
  have huds := UdsClient.State.verdicts_eq (UdsClient.State.started_running
    ⟨-1,some (fun info _ => info.code = .connectionRefused)⟩) [.refused ⟨.connectionRefused,rfl,rfl⟩]
  have hdecision := h.decision
  rw [htcp, huds] at hdecision
  revert hdecision
  decide

end Wirestead.Transport
