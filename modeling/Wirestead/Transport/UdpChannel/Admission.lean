import Wirestead.Transport.UdpChannel.State

/-! # The write entry points of a UDP channel

Three copies of the plain admission and two of the nonblocking one, with and without a
destination. `write_move` and `write_shared` ask for the queue limit on their own and end
the channel above it; the others leave it to the reservation.
-/
namespace Wirestead.Transport.UdpChannel
open Diagnostics Sizes TcpClient

/-- `validate_payload_size` without a queue limit. -/
def validatePayloadSize (size : ℕ) : Option SendRejection :=
  if size = 0 then some .invalidArgument
  else if size > maxBufferSize then some .tooLarge
  else none

namespace Channel
variable {N : Type*} [CommRing N] (cfg : Config) (s : Channel N)

def accounting (session : Option ℕ) : Option ℕ :=
  (session.bind (s.writeWaits[·]?)).bind UdpWriteWait.accounting

/-- The ledger admission and the posting of the handler, after the bytes were reserved. -/
def accept (counters : Counters) (data : List UInt8) (storage : Storage) (destination : Option Endpoint)
    (session : Option ℕ) (handler : TxItem → ℕ → Handler) : Channel N × WriteOutcome :=
  let admitted := s.ledger.admitRequest data.length (s.accounting session)
  let item : TxItem := ⟨data,storage,destination,admitted.2,session⟩
  ({ s with counters := counters
            ledger := admitted.1
            posted := s.posted ++ [handler item s.generation] },.accept)

def reservePlain (data : List UInt8) (storage : Storage) (destination : Option Endpoint)
    (session : Option ℕ) : Channel N × WriteOutcome :=
  match tryReserveLimitBytes s.counters data.length cfg.bpLimit with
  | some (true,counters) => s.accept counters data storage destination session .enqueue
  | _ => (s,.reject .wouldBlock)

/-- Pooled when the pool has a buffer for it, on the heap otherwise. -/
def reserveCopy (data : List UInt8) (poolValid : Bool) (destination : Option Endpoint) (session : Option ℕ) :
    Channel N × WriteOutcome :=
  if cfg.enableMemoryPool ∧ data.length ≤ 65536 ∧ poolValid then
    s.reservePlain cfg data .pooled destination session
  else s.reservePlain cfg data .vector destination session

def refusal (data : List UInt8) (requireRemote : Bool) (expectedRun : Option ℕ) : Option SendRejection :=
  (validatePayloadSize data.length).or (s.admissionRejection requireRemote expectedRun)

def writeCopy (data : List UInt8) (expectedRun : Option ℕ) (poolValid : Bool) : Channel N × WriteOutcome :=
  match s.refusal data true expectedRun with
  | some reason => (s,.reject reason)
  | none => s.reserveCopy cfg data poolValid none none

def writeOwned (storage : Storage) (data : List UInt8) (expectedRun : Option ℕ) : Channel N × WriteOutcome :=
  match s.refusal data true expectedRun with
  | some reason => (s,.reject reason)
  | none =>
    if data.length > cfg.bpLimit then
      ({ s with posted := s.posted ++ [.oversized s.generation] },.reject .tooLarge)
    else s.reservePlain cfg data storage none none

def writeMove (data : List UInt8) (expectedRun : Option ℕ) : Channel N × WriteOutcome :=
  s.writeOwned cfg .vector data expectedRun

/-- A null buffer is an empty one. -/
def writeShared (data : List UInt8) (expectedRun : Option ℕ) : Channel N × WriteOutcome :=
  s.writeOwned cfg .shared data expectedRun

def reserveTry (data : List UInt8) (storage : Storage) (destination : Option Endpoint)
    (session : Option ℕ) : Channel N × WriteOutcome :=
  if s.backpressureActive ∨ add s.counters.queueBytes data.length > cfg.bpHigh ∨
      add (add s.counters.queueBytes s.counters.pendingBytes) data.length > cfg.bpLimit then
    (s,.reject .wouldBlock)
  else
    match tryReserveWriteBytesLocked s.counters s.backpressureActive data.length cfg.bpHigh cfg.bpLimit with
    | some (true,counters) => s.accept counters data storage destination session .tryEnqueue
    | _ => (s,.reject .wouldBlock)

def tryWriteOwned (storage : Storage) (data : List UInt8) (expectedRun : Option ℕ) : Channel N × WriteOutcome :=
  match s.refusal data true expectedRun with
  | some reason => (s,.reject reason)
  | none => s.reserveTry cfg data storage none none

def tryWriteMove (data : List UInt8) (expectedRun : Option ℕ) : Channel N × WriteOutcome :=
  s.tryWriteOwned cfg .vector data expectedRun

def tryWriteShared (data : List UInt8) (expectedRun : Option ℕ) : Channel N × WriteOutcome :=
  s.tryWriteOwned cfg .shared data expectedRun

/-- The payload is checked before it is copied, and again by `try_write_move`. -/
def tryWriteCopy (data : List UInt8) (expectedRun : Option ℕ) : Channel N × WriteOutcome :=
  match validatePayloadSize data.length with
  | some reason => (s,.reject reason)
  | none => s.tryWriteMove cfg data expectedRun

def sessionEnded (session : Option ℕ) : Bool :=
  match session.bind (s.writeWaits[·]?) with
  | none => false
  | some w => w.endedBy.isSome || decide (w.sequence ≠ s.generation)

def writeTo (data : List UInt8) (destination : Endpoint) (expectedRun : Option ℕ) (session : Option ℕ)
    (poolValid : Bool) : Channel N × WriteOutcome :=
  match s.refusal data false expectedRun with
  | some reason => (s,.reject reason)
  | none =>
    if s.sessionEnded session then (s,.reject .notReady)
    else s.reserveCopy cfg data poolValid (some destination) session

def noteQueued (session : Option ℕ) (size : ℕ) : Channel N :=
  match session with
  | none => s
  | some index =>
    { s with writeWaits := s.writeWaits.modify index (fun w =>
        if w.accounting.isSome then { w with queued := w.queued + size } else w) }

def tryWriteTo (data : List UInt8) (destination : Endpoint) (expectedRun : Option ℕ) (session : Option ℕ) :
    Channel N × WriteOutcome :=
  match s.refusal data false expectedRun with
  | some reason => (s,.reject reason)
  | none =>
    if s.sessionEnded session then (s,.reject .notReady)
    else
      let outcome := s.reserveTry cfg data .vector (some destination) session
      if outcome.2 = .accept then (outcome.1.noteQueued session data.length,.accept) else outcome

inductive Entry
  | copy (poolValid : Bool)
  | move
  | shared
  | tryCopy
  | tryMove
  | tryShared
  | writeTo (destination : Endpoint) (session : Option ℕ) (poolValid : Bool)
  | tryWriteTo (destination : Endpoint) (session : Option ℕ)
  deriving DecidableEq, Repr

def call (data : List UInt8) (expectedRun : Option ℕ) : Entry → Channel N × WriteOutcome
  | .copy poolValid => s.writeCopy cfg data expectedRun poolValid
  | .move => s.writeMove cfg data expectedRun
  | .shared => s.writeShared cfg data expectedRun
  | .tryCopy => s.tryWriteCopy cfg data expectedRun
  | .tryMove => s.tryWriteMove cfg data expectedRun
  | .tryShared => s.tryWriteShared cfg data expectedRun
  | .writeTo destination session poolValid => s.writeTo cfg data destination expectedRun session poolValid
  | .tryWriteTo destination session => s.tryWriteTo cfg data destination expectedRun session

/-- The handlers that a call has posted run, and nothing else does. -/
def settle (hooks : Hooks N) (t : Channel N) : Channel N :=
  (t.posted.drop s.posted.length).foldl (fun u handler => u.runHandler hooks handler) { t with posted := s.posted }

/-- The link is as it was, and what was accepted is live and held as before. -/
structure Unharmed (s t : Channel N) : Prop where
  state : t.state = s.state
  live : ∀ id, s.ledger.contains id = true → t.ledger.contains id = true
  held : ∀ item, s.Holds item → t.Holds item

/-- A rejection of the payload by any entry point costs other requests nothing, and the
plain variants agree on the payload. -/
structure Sound (hooks : Hooks N) (data : List UInt8) (expectedRun : Option ℕ) : Prop where
  unharmed : ∀ entry reason, (s.call cfg data expectedRun entry).2 = .reject reason →
    s.Unharmed (s.settle hooks (s.call cfg data expectedRun entry).1)
  agree : ∀ poolValid, (s.writeCopy cfg data expectedRun poolValid).2 = (s.writeMove cfg data expectedRun).2 ∧
    (s.writeCopy cfg data expectedRun poolValid).2 = (s.writeShared cfg data expectedRun).2

section Rejected
variable {cfg : Config} {s : Channel N} {data : List UInt8}

theorem reservePlain_rejected {storage : Storage} {destination : Option Endpoint} {session : Option ℕ}
    (h : (s.reservePlain cfg data storage destination session).2 ≠ .accept) :
    (s.reservePlain cfg data storage destination session).1 = s := by
  revert h
  unfold reservePlain
  split
  · exact fun h => absurd rfl h
  · exact fun _ => rfl

theorem reserveCopy_rejected {poolValid : Bool} {destination : Option Endpoint} {session : Option ℕ}
    (h : (s.reserveCopy cfg data poolValid destination session).2 ≠ .accept) :
    (s.reserveCopy cfg data poolValid destination session).1 = s := by
  revert h
  unfold reserveCopy
  split <;> exact reservePlain_rejected

theorem reserveTry_rejected {storage : Storage} {destination : Option Endpoint} {session : Option ℕ}
    (h : (s.reserveTry cfg data storage destination session).2 ≠ .accept) :
    (s.reserveTry cfg data storage destination session).1 = s := by
  revert h
  unfold reserveTry
  split
  · exact fun _ => rfl
  · split
    · exact fun h => absurd rfl h
    · exact fun _ => rfl

theorem tryWriteOwned_rejected {storage : Storage} {expectedRun : Option ℕ}
    (h : (s.tryWriteOwned cfg storage data expectedRun).2 ≠ .accept) :
    (s.tryWriteOwned cfg storage data expectedRun).1 = s := by
  revert h
  unfold tryWriteOwned
  split
  · exact fun _ => rfl
  · exact reserveTry_rejected

theorem writeOwned_rejected {storage : Storage} {expectedRun : Option ℕ}
    (h : (s.writeOwned cfg storage data expectedRun).2 ≠ .accept)
    (hfit : s.refusal data true expectedRun = none → data.length ≤ cfg.bpLimit) :
    (s.writeOwned cfg storage data expectedRun).1 = s := by
  revert h
  unfold writeOwned
  split
  · exact fun _ => rfl
  · rename_i hr
    rw [if_neg (not_lt.mpr (hfit hr))]
    exact reservePlain_rejected

theorem call_rejected {expectedRun : Option ℕ} {entry : Entry} {reason : SendRejection}
    (h : (s.call cfg data expectedRun entry).2 = .reject reason)
    (hfit : s.refusal data true expectedRun = none → data.length ≤ cfg.bpLimit) :
    (s.call cfg data expectedRun entry).1 = s := by
  have hne : (s.call cfg data expectedRun entry).2 ≠ .accept := by
    rw [h]
    exact nofun
  cases entry with
  | copy poolValid =>
    revert hne
    change (s.writeCopy cfg data expectedRun poolValid).2 ≠ .accept → (s.writeCopy cfg data expectedRun poolValid).1 = s
    unfold writeCopy
    split
    · exact fun _ => rfl
    · exact reserveCopy_rejected
  | move => exact writeOwned_rejected hne hfit
  | shared => exact writeOwned_rejected hne hfit
  | tryCopy =>
    revert hne
    change (s.tryWriteCopy cfg data expectedRun).2 ≠ .accept → (s.tryWriteCopy cfg data expectedRun).1 = s
    unfold tryWriteCopy
    split
    · exact fun _ => rfl
    · exact tryWriteOwned_rejected
  | tryMove => exact tryWriteOwned_rejected hne
  | tryShared => exact tryWriteOwned_rejected hne
  | writeTo destination session poolValid =>
    revert hne
    change (s.writeTo cfg data destination expectedRun session poolValid).2 ≠ .accept →
      (s.writeTo cfg data destination expectedRun session poolValid).1 = s
    unfold writeTo
    split
    · exact fun _ => rfl
    · split
      · exact fun _ => rfl
      · exact reserveCopy_rejected
  | tryWriteTo destination session =>
    revert hne
    change (s.tryWriteTo cfg data destination expectedRun session).2 ≠ .accept →
      (s.tryWriteTo cfg data destination expectedRun session).1 = s
    unfold tryWriteTo
    split
    · exact fun _ => rfl
    · split
      · exact fun _ => rfl
      · dsimp only
        split
        · exact fun h => absurd rfl h
        · exact reserveTry_rejected

theorem settle_self (hooks : Hooks N) : s.settle hooks s = s := by
  unfold settle
  rw [List.drop_length]
  rfl

/-- The storage of a payload has no say in its reservation. -/
theorem reservePlain_outcome (storage storage' : Storage) (destination : Option Endpoint) (session : Option ℕ) :
    (s.reservePlain cfg data storage destination session).2 =
      (s.reservePlain cfg data storage' destination session).2 := by
  unfold reservePlain
  split <;> rfl

theorem reserveCopy_outcome (poolValid : Bool) (storage : Storage) (destination : Option Endpoint)
    (session : Option ℕ) : (s.reserveCopy cfg data poolValid destination session).2 =
      (s.reservePlain cfg data storage destination session).2 := by
  unfold reserveCopy
  split <;> exact reservePlain_outcome _ _ _ _

/-- Within the queue limit the copies of the admission agree. -/
theorem writeCopy_outcome {expectedRun : Option ℕ} (poolValid : Bool) (storage : Storage)
    (hfit : s.refusal data true expectedRun = none → data.length ≤ cfg.bpLimit) :
    (s.writeCopy cfg data expectedRun poolValid).2 = (s.writeOwned cfg storage data expectedRun).2 := by
  unfold writeCopy writeOwned
  split
  · rfl
  · rename_i hr
    rw [if_neg (not_lt.mpr (hfit hr))]
    exact reserveCopy_outcome _ _ _ _

theorem writeCopy_oversized {expectedRun : Option ℕ} (poolValid : Bool) (hr : s.refusal data true expectedRun = none)
    (hlt : cfg.bpLimit < data.length) : (s.writeCopy cfg data expectedRun poolValid).2 = .reject .wouldBlock ∧
    (s.writeMove cfg data expectedRun).2 = .reject .tooLarge := by
  have hreserve : ∀ storage, (s.reservePlain cfg data storage none none).2 = .reject .wouldBlock := by
    intro storage
    unfold reservePlain tryReserveLimitBytes
    rw [if_pos (.inr hlt)]
  constructor
  · unfold writeCopy
    rw [hr]
    exact (reserveCopy_outcome poolValid .vector none none).trans (hreserve .vector)
  · unfold writeMove writeOwned
    rw [hr]
    dsimp only
    rw [if_pos hlt]

end Rejected

/-- Rejections are harmless and the plain variants agree, unless the payload passes
admission and lies above the queue limit and within the largest buffer. -/
theorem sound_iff (cfg : Config) (s : Channel N) (hooks : Hooks N) (data : List UInt8) (expectedRun : Option ℕ) :
    s.Sound cfg hooks data expectedRun ↔
      ¬ (s.admissionRejection true expectedRun = none ∧ cfg.bpLimit < data.length ∧ data.length ≤ maxBufferSize) := by
  constructor
  · rintro hsound ⟨hadmission,hlt,hmax⟩
    have hr : s.refusal data true expectedRun = none := by
      unfold refusal validatePayloadSize
      rw [if_neg (by omega), if_neg (not_lt.mpr hmax)]
      exact hadmission
    obtain ⟨hcopy,hmove⟩ := writeCopy_oversized true hr hlt
    have hagree := (hsound.agree true).1
    rw [hcopy, hmove] at hagree
    cases hagree
  · intro hcond
    have hfit : s.refusal data true expectedRun = none → data.length ≤ cfg.bpLimit := by
      intro hr
      obtain ⟨hvalid,hadmission⟩ := Option.or_eq_none_iff.mp hr
      by_contra hlt
      refine hcond ⟨hadmission,not_le.mp hlt,?_⟩
      by_contra hmax
      unfold validatePayloadSize at hvalid
      rw [if_neg (by omega), if_pos (not_le.mp hmax)] at hvalid
      cases hvalid
    refine ⟨fun entry reason h => ?_,fun poolValid => ?_⟩
    · rw [call_rejected h hfit, settle_self]
      exact ⟨rfl,fun _ => id,fun _ => id⟩
    · exact ⟨writeCopy_outcome poolValid .vector hfit,writeCopy_outcome poolValid .shared hfit⟩

section Sample

def sampleConfig : Config := ⟨1024,true,smallest_ge,smallest_le⟩

/-- An open channel with one accepted datagram of three bytes in its queue. -/
def sampleChannel : Channel ℤ where
  generation := 1
  stopRequested := false
  stopping := false
  opened := true
  connected := true
  started := true
  cleanupDone := false
  state := .connected
  terminalStateNotified := false
  remoteEndpoint := some ⟨1,9000⟩
  counters := ⟨3,0,0⟩
  backpressureActive := false
  tx := [⟨[1,2,3],.vector,none,1,none⟩]
  pending := []
  sending := []
  writeWaits := []
  ledger := (Ledger.new.admitRequest 3 none).1
  posted := []

def sampleHooks : Hooks ℤ := ⟨fun _ _ s => s,fun _ _ s => s,id,id⟩

/-- `write_move` rejects a payload one byte above the queue limit and ends the channel: the
accepted request is neither live nor queued. `write_copy` of the same bytes would block. -/
theorem oversized_ends_channel : ∃ data : List UInt8, data = List.replicate (2 ^ 20 + 1) 0 ∧
    (sampleChannel.writeMove sampleConfig data none).2 = .reject .tooLarge ∧
    (sampleChannel.writeCopy sampleConfig data none true).2 = .reject .wouldBlock ∧
    (sampleChannel.settle sampleHooks (sampleChannel.writeMove sampleConfig data none).1).state = .error ∧
    sampleChannel.ledger.contains 1 = true ∧
    (sampleChannel.settle sampleHooks (sampleChannel.writeMove sampleConfig data none).1).ledger.contains 1 = false ∧
    (sampleChannel.settle sampleHooks (sampleChannel.writeMove sampleConfig data none).1).tx = [] ∧
    ¬ sampleChannel.Sound sampleConfig sampleHooks data none := by
  obtain ⟨data,hdata,hlength⟩ : ∃ data : List UInt8, data = List.replicate (2 ^ 20 + 1) 0 ∧
    data.length = 2 ^ 20 + 1 := ⟨_,rfl,List.length_replicate⟩
  have hlt : sampleConfig.bpLimit < data.length := by
    rw [hlength]
    decide
  have hr : sampleChannel.refusal data true none = none := by
    unfold refusal
    rw [hlength]
    decide
  have hmove : sampleChannel.writeMove sampleConfig data none =
      ({ sampleChannel with posted := [.oversized 1] },.reject .tooLarge) := by
    unfold writeMove writeOwned
    rw [hr]
    dsimp only
    rw [if_pos hlt]
    rfl
  obtain ⟨hcopy,hlarge⟩ := writeCopy_oversized true hr hlt
  have hsound : ¬ sampleChannel.Sound sampleConfig sampleHooks data none := by
    intro hsound
    have hagree := (hsound.agree true).1
    rw [hcopy, hlarge] at hagree
    cases hagree
  refine ⟨data,hdata,hlarge,hcopy,?_,by decide +kernel,?_,?_,hsound⟩
  · rw [hmove]
    decide +kernel
  · rw [hmove]
    decide +kernel
  · rw [hmove]
    rfl

end Sample
end Channel
end Wirestead.Transport.UdpChannel
