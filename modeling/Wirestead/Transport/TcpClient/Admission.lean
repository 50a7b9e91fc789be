import Wirestead.Diagnostics.LedgerLive
import Wirestead.Transport.TcpClient.Strand

/-! # What a write call does to the send state

A call that is accepted adds one request and its size to one counter. A call that is
refused, or that throws, should leave no trace. The ledger admission has a guard that
rolls it back, the byte reservation has none.
-/
namespace Wirestead.Transport.TcpClient
open Diagnostics Sizes

/-- The native write calls, with the allocations that fail in them. -/
inductive WriteCall
  | write (kind : PlainWrite) (data : List UInt8) (expectedConnection : Option ℕ) (faults : WriteFaults)
  | tryWrite (kind : TryWrite) (data : List UInt8) (faults : WriteFaults)
  deriving DecidableEq, Repr

def WriteCall.data : WriteCall → List UInt8
  | .write _ data _ _ => data
  | .tryWrite _ data _ => data

/-- An allocation fails after the bytes were reserved. -/
def WriteFaults.strike (f : WriteFaults) : Bool := f.ledger || f.post

namespace State
variable {N : Type*} [CommRing N]

def call (cfg : Config) (s : State N) : WriteCall → State N × WriteOutcome
  | .write kind data expectedConnection faults => s.write cfg kind data expectedConnection faults
  | .tryWrite kind data faults => s.tryWrite cfg kind data faults

/-- The queues, the counters and the ledger's live requests and totals are as before. -/
structure Unchanged (s t : State N) : Prop where
  counters : t.counters = s.counters
  tx : t.tx = s.tx
  pending : t.pending = s.pending
  requests : t.ledger.toMap.requests = s.ledger.toMap.requests
  books : t.ledger.books = s.ledger.books

/-- One counter has grown by the size, and the ledger by one request. -/
structure Admitted (s t : State N) (bytes : ℕ) : Prop where
  counters : t.counters = { s.counters with queueBytes := s.counters.queueBytes + bytes } ∨
    t.counters = { s.counters with inflightBytes := s.counters.inflightBytes + bytes }
  tx : t.tx = s.tx
  pending : t.pending = s.pending
  requests : t.ledger.toMap.requests =
    s.ledger.toMap.requests ++ [(s.ledger.nextId + 1,⟨bytes,s.ledger.books.epoch,false,none⟩)]
  books : t.ledger.books = { s.ledger.books with totals := s.ledger.books.totals.admitRequest bytes }

/-- A call that returned `r` has added its request or left the send state as it was. -/
def Settles (s : State N) (bytes : ℕ) (r : State N × WriteOutcome) : Prop :=
  if r.2 = .accept then s.Admitted r.1 bytes else s.Unchanged r.1

/-- A plain write of the payload passes the hard limit. -/
def reserves (cfg : Config) (s : State N) (data : List UInt8) : Bool :=
  decide (0 < data.length ∧ s.counters.total + data.length ≤ cfg.bpLimit)

/-- A nonblocking write of the payload passes both bounds. -/
def reservesTry (cfg : Config) (s : State N) (data : List UInt8) : Bool :=
  decide (0 < data.length ∧ s.backpressureActive = false ∧
    s.counters.queueBytes + data.length ≤ cfg.bpHigh ∧ s.counters.total + data.length ≤ cfg.bpLimit)

/-- The call reserves its bytes, and the ledger admission or the posting of the handler
fails afterwards; in `write_copy` that of the pooled attempt, if there is one. -/
def leaks (cfg : Config) (s : State N) : WriteCall → Bool
  | .write kind data expectedConnection faults =>
    decide (s.admissionRejection expectedConnection = none) && decide (data.length ≤ maxBufferSize) &&
      s.reserves cfg data &&
      match kind with
      | .copy poolFails pooled copyFails =>
        if data.length ≤ 65536 ∧ cfg.enableMemoryPool ∧ ¬ poolFails then pooled.strike
        else !copyFails && faults.strike
      | .move => faults.strike
      | .shared => faults.strike
  | .tryWrite _ data faults =>
    decide (s.admissionRejection none = none) && decide (data.length ≤ maxBufferSize) &&
      s.reservesTry cfg data && faults.strike

section Specs
variable {cfg : Config} {s t u : State N} {data : List UInt8}

omit [CommRing N] in
theorem Unchanged.refl (s : State N) : s.Unchanged s := ⟨rfl,rfl,rfl,rfl,rfl⟩

theorem submit_counters (t : State N) (data : List UInt8) (faults : WriteFaults)
    (handler : TrackedBuffer → Handler) : (t.submit data faults handler).1.counters = t.counters := by
  unfold submit
  split_ifs <;> rfl

theorem submit_outcome (t : State N) (data : List UInt8) (faults : WriteFaults)
    (handler : TrackedBuffer → Handler) :
    (t.submit data faults handler).2 = if faults.strike then .throws else .accept := by
  unfold submit WriteFaults.strike
  cases faults.ledger <;> cases faults.post <;> rfl

/-- The part after the reservation rolls nothing back but the ledger. -/
theorem submit_settles (hv : s.ledger.Valid) (data : List UInt8) (faults : WriteFaults)
    (handler : TrackedBuffer → Handler) (hd : 0 < data.length) (hl : t.ledger = s.ledger)
    (htx : t.tx = s.tx) (hp : t.pending = s.pending)
    (hc : t.counters = { s.counters with queueBytes := s.counters.queueBytes + data.length } ∨
      t.counters = { s.counters with inflightBytes := s.counters.inflightBytes + data.length }) :
    s.Settles data.length (t.submit data faults handler) ↔ faults.strike = false := by
  have hout := t.submit_outcome data faults handler
  have hcounters := t.submit_counters data faults handler
  unfold Settles
  cases hf : faults.strike with
  | true =>
    rw [hf, if_pos rfl] at hout
    rw [if_neg (by rw [hout]; simp)]
    refine iff_of_false (fun hu => ?_) (by simp)
    have he := hcounters.symm.trans hu.counters
    rcases hc with hc | hc
    · have hq := congrArg Counters.queueBytes (hc.symm.trans he)
      dsimp only at hq
      omega
    · have hi := congrArg Counters.inflightBytes (hc.symm.trans he)
      dsimp only at hi
      omega
  | false =>
    rw [hf, if_neg (by simp)] at hout
    rw [if_pos hout]
    refine iff_of_true ?_ rfl
    have hadmission := (hv.matches_admitRequest data.length none).1.toMap
    obtain ⟨hl',hp'⟩ : faults.ledger = false ∧ faults.post = false := by
      unfold WriteFaults.strike at hf
      simpa using hf
    have hsubmit : (t.submit data faults handler).1.ledger = (s.ledger.admitRequest data.length none).1 ∧
        (t.submit data faults handler).1.tx = s.tx ∧
        (t.submit data faults handler).1.pending = s.pending := by
      unfold submit
      rw [hl', hp', ← hl, ← htx, ← hp]
      exact ⟨rfl,rfl,rfl⟩
    refine ⟨hcounters ▸ hc,hsubmit.2.1,hsubmit.2.2,?_,?_⟩
    · rw [hsubmit.1, hadmission]
      rfl
    · rw [hsubmit.1]
      change (s.ledger.admitRequest data.length none).1.toMap.books = _
      rw [hadmission]
      simp only [LedgerMap.admitRequest, Ledger.toMap, Books.joinGroup, Books.update, if_true]

theorem submitPlain_eq (cfg : Config) (s : State N) (data : List UInt8) (faults : WriteFaults) :
    s.submitPlain cfg data faults = if s.reserves cfg data then
      ({ s with counters := { s.counters with inflightBytes := s.counters.inflightBytes + data.length } } :
        State N).submit data faults (fun item => .write item s.currentSeq s.connectionSeq)
      else (s,.reject .wouldBlock) := by
  unfold submitPlain reserves
  rw [tryReserveLimitBytes_eq cfg.bpLimit_lt]
  by_cases h : 0 < data.length ∧ s.counters.total + data.length ≤ cfg.bpLimit
  · rw [if_pos h, if_pos (decide_eq_true h)]
  · rw [if_neg h, if_neg (by simpa using h)]

/-- The first check of a nonblocking write is implied by its reservation. -/
theorem submitTry_eq (cfg : Config) (s : State N) (data : List UInt8) (faults : WriteFaults) :
    s.submitTry cfg data faults = if s.reservesTry cfg data then
      ({ s with counters := { s.counters with queueBytes := s.counters.queueBytes + data.length } } :
        State N).submit data faults (fun item => .tryWrite item s.currentSeq s.connectionSeq)
      else (s,.reject .wouldBlock) := by
  unfold submitTry reservesTry
  have hlimit := cfg.bpLimit_lt
  rw [tryReserveWriteBytesLocked_eq cfg.bpLimit_lt]
  by_cases h : 0 < data.length ∧ s.backpressureActive = false ∧
      s.counters.queueBytes + data.length ≤ cfg.bpHigh ∧ s.counters.total + data.length ≤ cfg.bpLimit
  · have htotal := h.2.2.2
    unfold Counters.total at htotal
    rw [if_pos h, if_pos (decide_eq_true h), if_neg]
    rw [add_eq (by omega), add_eq (a := s.counters.queueBytes) (by omega), add_eq (by omega), h.2.1]
    simp only [Bool.false_eq_true, false_or, not_or]
    exact ⟨not_lt.mpr h.2.2.1,by omega⟩
  · rw [if_neg h, if_neg (show ¬ (decide _ = true) by simpa using h)]
    split <;> rfl

theorem settles_rejected (s : State N) (bytes : ℕ) (reason : SendRejection) :
    s.Settles bytes (s,.reject reason) := by
  unfold Settles
  rw [if_neg (by simp)]
  exact .refl s

theorem submitPlain_settles (hv : s.ledger.Valid) (cfg : Config) (data : List UInt8) (faults : WriteFaults) :
    s.Settles data.length (s.submitPlain cfg data faults) ↔
      (s.reserves cfg data && faults.strike) = false := by
  rw [submitPlain_eq]
  cases hres : s.reserves cfg data with
  | true =>
    rw [if_pos rfl, Bool.true_and]
    exact submit_settles hv data faults _ (of_decide_eq_true hres).1 rfl rfl rfl (.inr rfl)
  | false => exact iff_of_true (s.settles_rejected _ _) rfl

theorem submitTry_settles (hv : s.ledger.Valid) (cfg : Config) (data : List UInt8) (faults : WriteFaults) :
    s.Settles data.length (s.submitTry cfg data faults) ↔
      (s.reservesTry cfg data && faults.strike) = false := by
  rw [submitTry_eq]
  cases hres : s.reservesTry cfg data with
  | true =>
    rw [if_pos rfl, Bool.true_and]
    exact submit_settles hv data faults _ (of_decide_eq_true hres).1 rfl rfl rfl (.inl rfl)
  | false => exact iff_of_true (s.settles_rejected _ _) rfl

theorem submitCopy_settles (hv : s.ledger.Valid) (cfg : Config) (data : List UInt8) (copyFails : Bool)
    (faults : WriteFaults) : s.Settles data.length (s.submitCopy cfg data copyFails faults) ↔
      (s.reserves cfg data && (!copyFails && faults.strike)) = false := by
  unfold submitCopy
  cases copyFails with
  | true =>
    refine iff_of_true ?_ (by simp)
    unfold Settles
    rw [if_pos rfl, if_neg (by simp)]
    exact .refl s
  | false =>
    rw [if_neg (by simp), Bool.not_false, Bool.true_and]
    exact submitPlain_settles hv cfg data faults

/-- A plain attempt reserves, whatever happens to it later. -/
theorem submitPlain_inflight (cfg : Config) (t : State N) (data : List UInt8) (faults : WriteFaults) :
    (t.submitPlain cfg data faults).1.counters.inflightBytes =
      t.counters.inflightBytes + (if t.reserves cfg data then data.length else 0) := by
  rw [submitPlain_eq]
  split
  · rw [submit_counters]
  · rfl

theorem submitPlain_outcome (cfg : Config) (t : State N) (data : List UInt8) (faults : WriteFaults) :
    (t.submitPlain cfg data faults).2 = if t.reserves cfg data then
      (if faults.strike then .throws else .accept) else .reject .wouldBlock := by
  rw [submitPlain_eq]
  split
  · rw [submit_outcome]
  · rfl

/-- A second attempt does not give back what the first one has left reserved. -/
theorem submitCopy_not_settles (cfg : Config) (data : List UInt8) (copyFails : Bool) (faults : WriteFaults)
    (hd : 0 < data.length) (ht : t.counters.inflightBytes = s.counters.inflightBytes + data.length) :
    ¬ s.Settles data.length (t.submitCopy cfg data copyFails faults) := by
  have hgrown : ∀ r : State N × WriteOutcome, s.counters.inflightBytes + data.length ≤ r.1.counters.inflightBytes →
      (r.2 = .accept → r.1.counters.inflightBytes ≠ s.counters.inflightBytes + data.length) →
      ¬ s.Settles data.length r := by
    intro r hle hne hs
    unfold Settles at hs
    split at hs
    · rename_i hr
      rcases hs.counters with he | he
      · have := congrArg Counters.inflightBytes he
        dsimp only at this
        omega
      · exact hne hr (congrArg Counters.inflightBytes he)
    · have := congrArg Counters.inflightBytes hs.counters
      omega
  unfold submitCopy
  cases copyFails with
  | true => exact hgrown _ ht.ge nofun
  | false =>
    have hin := submitPlain_inflight cfg t data faults
    have hout := submitPlain_outcome cfg t data faults
    rw [if_neg (by simp)]
    refine hgrown _ (by omega) (fun ha => ?_)
    rw [hout] at ha
    split at ha
    · rename_i hres
      rw [if_pos hres] at hin
      omega
    · cases ha

theorem writeCopy_settles (hv : s.ledger.Valid) (cfg : Config) (data : List UInt8) (poolFails : Bool)
    (pooled : WriteFaults) (copyFails : Bool) (faults : WriteFaults) :
    s.Settles data.length (s.writeCopy cfg data poolFails pooled copyFails faults) ↔
      (s.reserves cfg data && if data.length ≤ 65536 ∧ cfg.enableMemoryPool ∧ ¬ poolFails then pooled.strike
        else !copyFails && faults.strike) = false := by
  unfold writeCopy
  dsimp only
  split
  · have hplain := submitPlain_settles hv cfg data pooled
    have hout := submitPlain_outcome cfg s data pooled
    cases hres : s.reserves cfg data with
    | false =>
      rw [hres, Bool.false_and] at hplain
      rw [hres, if_neg (by simp)] at hout
      rw [hout, if_neg (by simp), Bool.false_and]
      exact hplain
    | true =>
      rw [hres, Bool.true_and] at hplain
      rw [hres, if_pos rfl] at hout
      rw [Bool.true_and]
      cases hf : pooled.strike with
      | false =>
        rw [hf] at hplain hout
        rw [hout, if_neg (by simp)]
        exact hplain
      | true =>
        rw [hf, if_pos rfl] at hout
        rw [hout, if_pos rfl]
        have hin := submitPlain_inflight cfg s data pooled
        rw [hres, if_pos rfl] at hin
        exact iff_of_false (submitCopy_not_settles cfg data copyFails faults (of_decide_eq_true hres).1 hin)
          (by simp)
  · exact submitCopy_settles hv cfg data copyFails faults

end Specs

/-- A write call is atomic exactly when nothing fails between its reservation and the
posting of its handler. -/
theorem call_settles_iff (cfg : Config) (s : State N) (hv : s.ledger.Valid) (c : WriteCall) :
    s.Settles c.data.length (s.call cfg c) ↔ s.leaks cfg c = false := by
  cases c with
  | write kind data expectedConnection faults =>
    change s.Settles data.length (s.write cfg kind data expectedConnection faults) ↔ _
    unfold write leaks
    cases hr : s.admissionRejection expectedConnection with
    | some reason => exact iff_of_true (s.settles_rejected _ _) (by simp [hr])
    | none =>
      dsimp only
      by_cases hd : data.length = 0
      · rw [if_pos hd]
        refine iff_of_true (s.settles_rejected _ _) ?_
        have hres : s.reserves cfg data = false := decide_eq_false (by omega)
        simp [hres]
      rw [if_neg hd]
      by_cases hmax : data.length > maxBufferSize
      · rw [if_pos hmax, decide_eq_false (not_le.mpr hmax)]
        exact iff_of_true (s.settles_rejected _ _) (by simp)
      rw [if_neg hmax, decide_eq_true (not_lt.mp hmax), decide_eq_true hr, Bool.true_and, Bool.true_and]
      cases kind with
      | copy poolFails pooled copyFails => exact writeCopy_settles hv cfg data poolFails pooled copyFails faults
      | move => exact submitPlain_settles hv cfg data faults
      | shared => exact submitPlain_settles hv cfg data faults
  | tryWrite kind data faults =>
    change s.Settles data.length (s.tryWrite cfg kind data faults) ↔ _
    unfold tryWrite leaks
    have hres : data.length = 0 → s.reservesTry cfg data = false := fun hd => decide_eq_false (by omega)
    cases hr : s.admissionRejection none with
    | some reason =>
      rw [decide_eq_false (by simp)]
      cases kind <;> dsimp only <;> split_ifs <;> exact iff_of_true (s.settles_rejected _ _) (by simp)
    | none =>
      dsimp only
      rw [decide_eq_true rfl, Bool.true_and]
      by_cases hd : data.length = 0
      · rw [hres hd, if_pos hd]
        cases kind <;> exact iff_of_true (s.settles_rejected _ _) (by simp)
      by_cases hmax : data.length > maxBufferSize
      · rw [if_neg hd, if_pos hmax, decide_eq_false (not_le.mpr hmax)]
        cases kind <;> exact iff_of_true (s.settles_rejected _ _) (by simp)
      rw [if_neg hd, if_neg hmax, decide_eq_true (not_lt.mp hmax), Bool.true_and]
      cases kind <;> exact submitTry_settles hv cfg data faults

section Sample

/-- The smallest threshold, with the pool and without TLS. -/
def sampleConfig : Config := ⟨1024,true,false,smallest_ge,smallest_le⟩

def sampleSettings : Settings := ⟨-1,none,0,.close⟩

/-- The first connection: start, resolve and connect succeed. -/
def connectOps : List StepOp :=
  [.start,.handler .none,.complete 0 ⟨.success,0,false⟩ .none,.complete 1 ⟨.success,0,false⟩ .none]

def connectedSample : State ℤ := (init sampleSettings : State ℤ).run sampleConfig connectOps

/-- `call_settles_iff` on the new connection, with a payload of three bytes. -/
theorem call_settles_sample :
    (connectedSample.Settles 3 (connectedSample.call sampleConfig (.tryWrite .move [1,2,3] ⟨false,false⟩)) ∧
      (connectedSample.call sampleConfig (.tryWrite .move [1,2,3] ⟨false,false⟩)).2 = .accept) := by
  refine ⟨(call_settles_iff sampleConfig connectedSample ?_ _).mpr (by decide +kernel),by decide +kernel⟩
  exact Ledger.valid_new

/-- The handler of an accepted payload cannot be posted: three bytes stay reserved. And a
copy whose pooled attempt fails so is accepted with six bytes reserved. -/
theorem write_leaks :
    (connectedSample.call sampleConfig (.write .move [1,2,3] none ⟨false,true⟩)).2 = .throws ∧
    ¬ connectedSample.Settles 3 (connectedSample.call sampleConfig (.write .move [1,2,3] none ⟨false,true⟩)) ∧
    (connectedSample.call sampleConfig
      (.write (.copy false ⟨false,true⟩ false) [1,2,3] none ⟨false,false⟩)).2 = .accept ∧
    ¬ connectedSample.Settles 3 (connectedSample.call sampleConfig
      (.write (.copy false ⟨false,true⟩ false) [1,2,3] none ⟨false,false⟩)) := by
  have hmove : (connectedSample.call sampleConfig
      (.write .move [1,2,3] none ⟨false,true⟩)).1.counters.inflightBytes = 3 := by decide +kernel
  have hcopy : (connectedSample.call sampleConfig
      (.write (.copy false ⟨false,true⟩ false) [1,2,3] none ⟨false,false⟩)).1.counters.inflightBytes = 6 := by
    decide +kernel
  have hbefore : connectedSample.counters = .zero := by decide +kernel
  refine ⟨by decide +kernel,fun h => ?_,by decide +kernel,fun h => ?_⟩
  · have hout : (connectedSample.call sampleConfig (.write .move [1,2,3] none ⟨false,true⟩)).2 ≠ .accept := by
      decide +kernel
    unfold Settles at h
    rw [if_neg hout] at h
    rw [h.counters, hbefore] at hmove
    cases hmove
  · have hout : (connectedSample.call sampleConfig
        (.write (.copy false ⟨false,true⟩ false) [1,2,3] none ⟨false,false⟩)).2 = .accept := by decide +kernel
    unfold Settles at h
    rw [if_pos hout] at h
    rcases h.counters with hc | hc <;> rw [hc, hbefore] at hcopy <;> cases hcopy

end Sample
end State
end Wirestead.Transport.TcpClient
