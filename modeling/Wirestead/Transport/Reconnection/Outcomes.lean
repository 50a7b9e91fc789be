import Wirestead.Transport.TcpClient.Strand
import Wirestead.Transport.UdsClient.State

/-! # Attempts and their decisions

Both clients go through the same attempts: a connect fails or times out, or a connection
is made and later lost. Cancelled waits and operations do not report. Each failure leads
to one decision, and an armed retry begins the next attempt.
-/
namespace Wirestead.Transport
open TcpClient (ErrorCode ErrorInfo TrackedBuffer WriteBatch isRetryableTcpConnectError decideReconnect)
open UdsClient (isRetryableUdsConnectError)

/-- An error that both clients take for retryable. -/
structure Failure where
  code : ErrorCode
  tcp : isRetryableTcpConnectError code = true
  uds : isRetryableUdsConnectError code = true

theorem Failure.code_ne_aborted (e : Failure) : e.code ≠ .operationAborted := by
  intro h
  have := e.tcp
  rw [h] at this
  cases this

theorem Failure.code_ne_success (e : Failure) : e.code ≠ .success := by
  intro h
  have := e.tcp
  rw [h] at this
  cases this

/-- The operation that meets the loss. -/
inductive Loss
  | read
  | write (buffers : List TrackedBuffer) (bytes written : ℕ)

inductive Outcome
  | refused (e : Failure)
  | timedOut
  | lost (e : Failure) (loss : Loss)

/-- The error code of the failure that is decided. -/
def Outcome.code : Outcome → ErrorCode
  | .refused e => e.code
  | .timedOut => .timedOut
  | .lost e _ => e.code

/-- A connection that was made resets the attempts. -/
def Outcome.attempts (n : ℕ) : Outcome → ℕ
  | .lost _ _ => 0
  | _ => n

inductive Decision
  | armed
  | gaveUp
  | undecided
  deriving DecidableEq, Repr

/-- What a policy is asked. -/
structure PolicyCall where
  code : ErrorCode
  retryable : Bool
  attempt : ℕ
  deriving DecidableEq, Repr

structure Verdict where
  decision : Decision
  call : Option PolicyCall
  deriving DecidableEq, Repr

/-- The checks of `decide_reconnect_common` before a policy is asked. -/
def Refuses (maxRetries : ℤ) (info : ErrorInfo) (attempt : ℕ) : Prop :=
  info.retryable = false ∨ maxRetries = 0 ∨ (maxRetries > 0 ∧ (attempt : ℤ) ≥ maxRetries)

instance (maxRetries : ℤ) (info : ErrorInfo) (attempt : ℕ) : Decidable (Refuses maxRetries info attempt) :=
  inferInstanceAs (Decidable (_ ∨ _ ∨ (_ ∧ _)))

/-- The call of the policy that a decision makes. -/
def policyCalled (maxRetries : ℤ) (policy : Option (ErrorInfo → ℕ → Bool)) (info : ErrorInfo) (attempt : ℕ) :
    Option PolicyCall :=
  if Refuses maxRetries info attempt then none else policy.map (fun _ => ⟨info.code,info.retryable,attempt⟩)

theorem decideReconnect_eq (settings : TcpClient.Settings) (info : ErrorInfo) (attempt : ℕ) :
    decideReconnect settings info attempt =
      if Refuses settings.maxRetries info attempt then false
      else match settings.reconnectPolicy with
        | some policy => policy info attempt
        | none => true := by
  unfold decideReconnect
  by_cases hr : info.retryable = false
  · rw [if_pos hr, if_pos (show Refuses _ _ _ from Or.inl hr)]
  · rw [if_neg hr]
    by_cases h0 : settings.maxRetries = 0
    · rw [if_pos h0, if_pos (show Refuses _ _ _ from Or.inr (Or.inl h0))]
    · rw [if_neg h0]
      by_cases hn : settings.maxRetries > 0 ∧ (attempt : ℤ) ≥ settings.maxRetries
      · rw [if_pos hn, if_pos (show Refuses _ _ _ from Or.inr (Or.inr hn))]
      · have hall : ¬Refuses settings.maxRetries info attempt := by
          rintro (h | h | h)
          · exact hr h
          · exact h0 h
          · exact hn h
        exact (if_neg hn).trans (if_neg hall).symm

/-- The decisions of a client that counts its attempts and reports its failures. -/
def decisions (settings : TcpClient.Settings) (report : Outcome → ℕ → ErrorInfo) (next : ℕ → ℕ) :
    ℕ → List Outcome → List Verdict
  | _, [] => []
  | n, o :: outcomes =>
    let n := o.attempts n
    let retry := decideReconnect settings (report o n) n
    ⟨if retry then .armed else .gaveUp,policyCalled settings.maxRetries settings.reconnectPolicy (report o n) n⟩ ::
      if retry then decisions settings report next (next n) outcomes else []

namespace TcpClient.State
variable {N : Type*} [CommRing N] (cfg : Config) (seq : ℕ) (s : State N)

omit [CommRing N] in
/-- An operation completes; no user callback does anything. -/
def take (o : Operation) : State N := { s with outstanding := s.outstanding.erase ⟨o,false⟩, script := .none }

def completes (o : Operation) (r : Completion) : State N := ((s.take o).runCompletion cfg r o).ioCompletion

/-- The name is resolved, and the connect begins. -/
def resolved : State N := s.completes cfg (.resolve seq) ⟨.success,0,false⟩

def established : State N := (s.resolved cfg seq).completes cfg (.connect seq) ⟨.success,0,false⟩

/-- One attempt, up to the decision about the next one. -/
def attempt : Outcome → State N
  | .refused e => (s.resolved cfg seq).completes cfg (.connect seq) ⟨e.code,0,false⟩
  | .timedOut => (s.resolved cfg seq).completes cfg (.connectTimer seq) ⟨.success,0,false⟩
  | .lost e .read =>
    let s := s.established cfg seq
    s.completes cfg (.read seq s.connectionSeq) ⟨e.code,0,false⟩
  | .lost e (.write buffers bytes written) =>
    let s := s.established cfg seq
    s.completes cfg (.write seq s.connectionSeq ⟨s.nextToken,buffers,bytes⟩) ⟨e.code,written,false⟩

/-- The retry wait ends and the next attempt begins. -/
def resume : State N := s.completes cfg (.retryTimer seq) ⟨.success,0,false⟩

/-- The state in which `handle_close` schedules the retry. -/
def closing (ec : ErrorCode) : State N :=
  (s.markDisconnected.discardConnectionWrites.recordClose ec).tearDown.transitionTo cfg .connecting ec

/-- The state in which the write completion calls `handle_close`. -/
def failWrite (batch : WriteBatch) (ec : ErrorCode) (written : ℕ) : State N :=
  let t := s.settleWrite seq s.connectionSeq batch ec written
  { t.recordError "write" ec false 0 with activeWrite := none, tx := batch.buffers ++ t.tx, writing := false }

/-- The state in which `schedule_retry` decides. -/
def atDecision : Outcome → State N
  | .refused e =>
    let s := (s.resolved cfg seq).take (.connect seq)
    (s.cancelWhere onConnectTimer).recordError "connect" e.code (isRetryableTcpConnectError e.code) s.currentAttempts
  | .timedOut =>
    let s := (s.resolved cfg seq).take (.connectTimer seq)
    (s.recordError "connect" .timedOut (isRetryableTcpConnectError .timedOut) s.currentAttempts).closing cfg .timedOut
  | .lost e .read =>
    let s := s.established cfg seq
    (s.take (.read seq s.connectionSeq)).closing cfg e.code
  | .lost e (.write buffers bytes written) =>
    let s := s.established cfg seq
    let batch : WriteBatch := ⟨s.nextToken,buffers,bytes⟩
    ((s.take (.write seq s.connectionSeq batch)).failWrite seq batch e.code written).closing cfg e.code

omit [CommRing N] in
def decision : Decision :=
  if s.state = .error then .gaveUp
  else if s.outstanding.any (fun o => !o.cancelled && onRetryTimer o.operation) then .armed
  else .undecided

omit [CommRing N] in
/-- What `schedule_retry` asks the policy in this state. -/
def policyCall : Option PolicyCall :=
  policyCalled s.settings.maxRetries s.settings.reconnectPolicy (s.lastError.getD unknownError) s.currentAttempts

/-- The verdicts of a run of attempts; the client stops when it gives up. -/
def verdicts : State N → List Outcome → List Verdict
  | _, [] => []
  | s, o :: outcomes =>
    let after := s.attempt cfg seq o
    ⟨after.decision,(s.atDecision cfg seq o).policyCall⟩ ::
      if after.decision = .armed then verdicts (after.resume cfg seq) outcomes else []

/-- A client that was started and resolves its first name. -/
def started (settings : Settings) : State N := ((init settings).step cfg .start).step cfg (.handler .none)

end TcpClient.State

namespace UdsClient.State
variable (seq : ℕ) (s : State)

def take (o : Operation) : State := { s with outstanding := s.outstanding.erase ⟨o,false⟩, script := .none }

def completes (o : Operation) (r : Completion) : State := (s.take o).runCompletion .ok r o

def established : State := s.completes (.connect seq) ⟨.success,0,false⟩

def attempt : Outcome → State
  | .refused e => s.completes (.connect seq) ⟨e.code,0,false⟩
  | .timedOut => s.completes (.connectTimer seq) ⟨.success,0,false⟩
  | .lost e .read =>
    let s := s.established seq
    s.completes (.read seq s.connectionSeq) ⟨e.code,0,false⟩
  | .lost e (.write buffers bytes written) =>
    let s := s.established seq
    s.completes (.write seq s.connectionSeq buffers bytes) ⟨e.code,written,false⟩

def resume : State := s.completes (.retryTimer seq) ⟨.success,0,false⟩

def closing (ec : ErrorCode) : State :=
  let s := (s.recordClose ec).markDisconnected.discardConnectionWrites.closeSocket
  (s.cancelWhere onRetryTimer).cancelWhere onConnectTimer

/-- The state in which `schedule_retry` decides. -/
def atDecision : Outcome → State
  | .refused e =>
    let s := (s.take (.connect seq)).cancelWhere onConnectTimer
    s.recordError "connect" e.code (isRetryableUdsConnectError e.code)
  | .timedOut => ((s.take (.connectTimer seq)).recordError "connect" .timedOut true).closing .timedOut
  | .lost e .read =>
    let s := s.established seq
    (s.take (.read seq s.connectionSeq)).closing e.code
  | .lost e (.write buffers bytes _) =>
    let s := s.established seq
    let s := (s.take (.write seq s.connectionSeq buffers bytes)).markDisconnected
    { s with tx := buffers ++ s.tx, writing := false }.closing e.code

def decision : Decision :=
  if s.state = .error then .gaveUp
  else if s.outstanding.any (fun o => !o.cancelled && onRetryTimer o.operation) then .armed
  else .undecided

/-- The policy is asked about the error that `schedule_retry` makes up. -/
def policyCall : Option PolicyCall :=
  policyCalled s.settings.maxRetries s.settings.reconnectPolicy dummyError s.reconnectAttemptCount

def verdicts : State → List Outcome → List Verdict
  | _, [] => []
  | s, o :: outcomes =>
    let after := s.attempt seq o
    ⟨after.decision,(s.atDecision seq o).policyCall⟩ ::
      if after.decision = .armed then verdicts (after.resume seq) outcomes else []

def started (settings : Settings) : State := ((init settings).step .ok .start).step .ok (.handler .none)

end UdsClient.State

end Wirestead.Transport
