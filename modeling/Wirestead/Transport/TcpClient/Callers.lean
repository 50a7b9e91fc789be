import Wirestead.Transport.TcpClient.State

/-! # Calls from outside the strand

Admission, explicit stop and the other entry points hold the submission mutex, so each
is one step. A write that is accepted has reserved its bytes, has a ledger request and
has posted its handler.
-/
namespace Wirestead.Transport.TcpClient
open Diagnostics Sizes

inductive WriteOutcome
  | accept
  | reject (reason : SendRejection)
  | throws
  deriving DecidableEq, Repr

namespace State
variable {N : Type*} [CommRing N]

def admissionRejection (s : State N) (expectedConnection : Option ℕ) : Option SendRejection :=
  if s.stopRequested then some (if s.cleanupDone then .notStarted else .stopping)
  else if s.currentSeq = 0 then some .notStarted
  else if (∃ c ∈ expectedConnection, c ≠ s.connectionSeq) ∨ s.state = .closed ∨ s.state = .error ∨
      ¬ s.connected then some .notReady
  else none

/-- The ledger admission and the posting of the handler, after the bytes were reserved.
A failure in between rolls the ledger back and leaves the reservation. -/
def submit (s : State N) (data : List UInt8) (faults : WriteFaults)
    (handler : TrackedBuffer → Handler) : State N × WriteOutcome :=
  if faults.ledger then (s,.throws)
  else
    let (ledger,request) := s.ledger.admitRequest data.length none
    if faults.post then ({ s with ledger := ledger.rollback request },.throws)
    else
      let item : TrackedBuffer := ⟨data,request⟩
      ({ { s with ledger := ledger }.post (handler item) with
          trace := .accepted item s.connectionSeq s.connected :: s.trace },.accept)

def submitPlain (cfg : Config) (s : State N) (data : List UInt8) (faults : WriteFaults) :
    State N × WriteOutcome :=
  match tryReserveLimitBytes s.counters data.length cfg.bpLimit with
  | some (true,counters) =>
    { s with counters := counters }.submit data faults
      (fun item => .write item s.currentSeq s.connectionSeq)
  | _ => (s,.reject .wouldBlock)

def submitCopy (cfg : Config) (s : State N) (data : List UInt8) (copyFails : Bool)
    (faults : WriteFaults) : State N × WriteOutcome :=
  if copyFails then (s,.throws) else s.submitPlain cfg data faults

/-- What the pooled attempt of `write_copy` throws is caught, and the copy on the heap
is tried afterwards. -/
def writeCopy (cfg : Config) (s : State N) (data : List UInt8) (poolFails : Bool)
    (pooled : WriteFaults) (copyFails : Bool) (faults : WriteFaults) : State N × WriteOutcome :=
  if data.length ≤ 65536 ∧ cfg.enableMemoryPool ∧ ¬ poolFails then
    let attempt := s.submitPlain cfg data pooled
    if attempt.2 = .throws then attempt.1.submitCopy cfg data copyFails faults else attempt
  else s.submitCopy cfg data copyFails faults

def write (cfg : Config) (s : State N) (kind : PlainWrite) (data : List UInt8)
    (expectedConnection : Option ℕ) (faults : WriteFaults) : State N × WriteOutcome :=
  match s.admissionRejection expectedConnection with
  | some reason => (s,.reject reason)
  | none =>
    if data.length = 0 then (s,.reject .invalidArgument)
    else if data.length > maxBufferSize then (s,.reject .tooLarge)
    else
      match kind with
      | .copy poolFails pooled copyFails => s.writeCopy cfg data poolFails pooled copyFails faults
      | .move => s.submitPlain cfg data faults
      | .shared => s.submitPlain cfg data faults

def submitTry (cfg : Config) (s : State N) (data : List UInt8) (faults : WriteFaults) :
    State N × WriteOutcome :=
  if s.backpressureActive ∨ add s.counters.queueBytes data.length > cfg.bpHigh ∨
      add (add s.counters.queueBytes s.counters.pendingBytes) data.length > cfg.bpLimit then
    (s,.reject .wouldBlock)
  else
    match tryReserveWriteBytesLocked s.counters s.backpressureActive data.length cfg.bpHigh cfg.bpLimit with
    | some (true,counters) =>
      { s with counters := counters }.submit data faults
        (fun item => .tryWrite item s.currentSeq s.connectionSeq)
    | _ => (s,.reject .wouldBlock)

def tryWrite (cfg : Config) (s : State N) (kind : TryWrite) (data : List UInt8)
    (faults : WriteFaults) : State N × WriteOutcome :=
  let argument : Option SendRejection :=
    if data.length = 0 then some .invalidArgument
    else if data.length > maxBufferSize then some .tooLarge
    else none
  -- only the shared variant looks at its argument before the connection
  let first := match kind with
    | .move => (s.admissionRejection none).or argument
    | .shared => argument.or (s.admissionRejection none)
  match first with
  | some reason => (s,.reject reason)
  | none => s.submitTry cfg data faults

/-- `stop` up to the point where the caller waits. A client that was never started is
cleaned up by the caller, and its state callback is not invoked after the request. -/
def stop (s : State N) : State N :=
  if s.stopRequested then s
  else
    let s := { s with stopRequested := true, ledger := s.ledger.endAll .explicitStop }
    let s := s.endWriteWait .cancelledWhileWaiting
    let s := { s with stopping := true, stopSeq := s.currentSeq }
    if s.currentSeq = 0 then s.stopCleanupWith id else s.post .stopCleanup

def failReceive (s : State N) : State N :=
  match s.writeConnection with
  | none => s
  | some connection => s.post (.failReceive connection s.currentSeq)

def callerStep (cfg : Config) (s : State N) : CallerOp → State N
  | .write kind data expectedConnection faults => (s.write cfg kind data expectedConnection faults).1
  | .tryWrite kind data faults => (s.tryWrite cfg kind data faults).1
  | .stop => s.stop
  | .resetStats => { s with ledger := s.ledger.reset }
  | .failReceive => s.failReceive
  | .cancelWriteWaits => s.endWriteWait .cancelledWhileWaiting
  | .configure settings => { s with settings := settings }

def callerRun (cfg : Config) (s : State N) (ops : List CallerOp) : State N :=
  ops.foldl (callerStep cfg) s

/-- A point where other threads or a user callback get a turn. -/
def giveWay (cfg : Config) (s : State N) : State N :=
  match s.script.callers with
  | [] => s
  | ops :: rest => { s with script.callers := rest }.callerRun cfg ops

section Respects
variable {cfg : Config} {s : State N} {data : List UInt8}

structure Admits (s : State N) (data : List UInt8) : Prop where
  stopRequested : s.stopRequested = false
  started : s.currentSeq ≠ 0
  connected : s.connected = true
  state : s.state ≠ .closed ∧ s.state ≠ .error
  positive : 0 < data.length

omit [CommRing N] in
theorem admits_of_admissionRejection {expectedConnection : Option ℕ}
    (h : s.admissionRejection expectedConnection = none) (hd : 0 < data.length) : s.Admits data := by
  unfold admissionRejection at h
  split_ifs at h with h1 h2 h3
  obtain ⟨-,hclosed,herror,hc⟩ := not_or.mp h3 |>.imp_right not_or.mp |>.imp_right (And.imp_right not_or.mp)
  exact ⟨by simpa using h1,h2,not_not.mp hc,⟨hclosed,herror⟩,hd⟩

theorem write_respects {P : State N → Prop} {R : State N → State N → Prop} (refl : ∀ t, R t t)
    (trans : ∀ {t u v}, R t u → R u v → R t v) {expectedConnection : Option ℕ}
    (start : s.Admits data → P s) (kind : PlainWrite) (faults : WriteFaults)
    (submit : ∀ t f, f = faults ∨ (∃ poolFails copyFails, kind = .copy poolFails f copyFails) → P t →
      P (t.submitPlain cfg data f).1 ∧ R t (t.submitPlain cfg data f).1) :
    R s (s.write cfg kind data expectedConnection faults).1 := by
  unfold write
  cases hr : s.admissionRejection expectedConnection with
  | some reason => exact refl s
  | none =>
    dsimp only
    by_cases hd : data.length = 0
    · rw [if_pos hd]
      exact refl s
    have hp := start (admits_of_admissionRejection hr (by omega))
    have hcopy : ∀ t copyFails, P t → R t (t.submitCopy cfg data copyFails faults).1 := by
      intro t copyFails ht
      unfold submitCopy
      split_ifs
      · exact refl t
      · exact (submit t faults (.inl rfl) ht).2
    rw [if_neg hd]
    split_ifs
    · exact refl s
    · cases kind with
      | move => exact (submit s faults (.inl rfl) hp).2
      | shared => exact (submit s faults (.inl rfl) hp).2
      | copy poolFails pooled copyFails =>
        obtain ⟨hp',hr'⟩ := submit s pooled (.inr ⟨poolFails,copyFails,rfl⟩) hp
        dsimp only
        unfold writeCopy
        dsimp only
        split_ifs
        · exact trans hr' (hcopy _ copyFails hp')
        · exact hr'
        · exact hcopy s copyFails hp

/-- What every call respects, a turn of the other threads respects. -/
theorem giveWay_respects {R : State N → State N → Prop} (refl : ∀ t, R t t)
    (trans : ∀ {t u v}, R t u → R u v → R t v) (setScript : ∀ t script, R t { t with script := script })
    (step : ∀ t op, R t (t.callerStep cfg op)) : R s (s.giveWay cfg) := by
  have hrun : ∀ (ops : List CallerOp) (t : State N), R t (t.callerRun cfg ops) := by
    intro ops
    induction ops with
    | nil => exact refl
    | cons op ops ih => exact fun t => trans (step t op) (ih _)
  unfold giveWay
  split
  · exact refl s
  · rename_i ops rest _
    exact trans (setScript s { s.script with callers := rest }) (hrun ops _)

theorem tryWrite_respects {R : State N → State N → Prop} (refl : ∀ t, R t t)
    (kind : TryWrite) (faults : WriteFaults) (submit : s.Admits data → R s (s.submitTry cfg data faults).1) :
    R s (s.tryWrite cfg kind data faults).1 := by
  unfold tryWrite
  dsimp only
  split
  · exact refl s
  · rename_i hfirst
    have hboth : s.admissionRejection none = none ∧ 0 < data.length := by
      cases kind with
      | move =>
        obtain ⟨h1,h2⟩ := Option.or_eq_none_iff.mp hfirst
        refine ⟨h1,?_⟩
        by_contra hd
        rw [if_pos (by omega)] at h2
        cases h2
      | shared =>
        obtain ⟨h1,h2⟩ := Option.or_eq_none_iff.mp hfirst
        refine ⟨h2,?_⟩
        by_contra hd
        rw [if_pos (by omega)] at h1
        cases h1
    exact submit (admits_of_admissionRejection hboth.1 hboth.2)

end Respects
end State
end Wirestead.Transport.TcpClient
