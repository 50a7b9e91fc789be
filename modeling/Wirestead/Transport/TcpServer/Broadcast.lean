import Wirestead.Transport.TcpServer.State

/-! # Sending to every session

`broadcast_result` selects the live sessions once and then decides each of them under
its own locks. Other threads and the strands take their steps in between. The payload
of the call and the state of the wrapper are fixed when it is made.
-/
namespace Wirestead.Transport.TcpServer
open Diagnostics Sizes TcpClient

/-- The indices of the array of reasons. -/
def reasonCodes : List SendRejection :=
  [.notStarted,.stopping,.notReady,.wouldBlock,.queueFull,.tooLarge,.invalidArgument,.cancelledWhileWaiting]

/-- `validate_payload_size`. -/
def validatePayloadSize (size queueLimit : ℕ) : Option SendRejection :=
  if size = 0 then some .invalidArgument
  else if size > maxBufferSize ∨ size > queueLimit then some .tooLarge
  else none

/-- Decisions over one fixed set of targets. -/
structure FanoutResult where
  accepted : ℕ
  rejected : ℕ
  reasons : SendRejection → ℕ

namespace FanoutResult

def empty : FanoutResult := ⟨0,0,fun _ => 0⟩

def targetCount (r : FanoutResult) : ℕ := r.accepted + r.rejected

def add (r : FanoutResult) : Option SendRejection → FanoutResult
  | none => { r with accepted := r.accepted + 1 }
  | some reason => { r with rejected := r.rejected + 1
                            reasons := Function.update r.reasons reason (r.reasons reason + 1) }

/-- The counts of the reasons sum to the rejected count. -/
def Tallied (r : FanoutResult) : Prop := (reasonCodes.map r.reasons).sum = r.rejected

theorem Tallied.add {r : FanoutResult} (h : r.Tallied) (decision : Option SendRejection) :
    (r.add decision).Tallied := by
  cases decision with
  | none => exact h
  | some reason =>
    have hsum : (reasonCodes.map (Function.update r.reasons reason (r.reasons reason + 1))).sum =
        (reasonCodes.map r.reasons).sum + 1 := by
      cases reason <;> simp [reasonCodes, Function.update] <;> omega
    exact hsum.trans (congrArg (· + 1) h)

end FanoutResult

/-- The arguments of the call. -/
structure Fanout where
  data : List UInt8
  appendNewline : Bool
  wrapperState : Option SendRejection

namespace Fanout
variable (f : Fanout)

def payload : List UInt8 := if f.appendNewline then f.data ++ [10] else f.data

/-- The size that is validated. -/
def size : ℕ :=
  if f.appendNewline then (if f.data.length ≥ maxBufferSize then maxBufferSize + 1 else f.data.length + 1)
  else f.data.length

end Fanout

namespace Session
variable {N : Type*} [CommRing N]

/-- `try_write_shared`. Its first test of the counters does not take their mutex, so it
may have seen other values. A failure after the reservation leaves it. -/
def tryWriteShared (cfg : Config) (v : Session N) (payload : List UInt8) (seen : Counters) (seenActive : Bool)
    (faults : WriteFaults) : Session N × WriteOutcome :=
  if v.isOpen = false then (v,.reject .notReady)
  else if payload.length = 0 then (v,.reject .invalidArgument)
  else if payload.length > maxBufferSize then (v,.reject .tooLarge)
  else if seenActive ∨ Sizes.add seen.queueBytes payload.length > cfg.bpHigh ∨
      Sizes.add (Sizes.add seen.queueBytes seen.pendingBytes) payload.length > cfg.bpLimit then (v,.reject .wouldBlock)
  else
    match tryReserveWriteBytesLocked v.counters v.backpressureActive payload.length cfg.bpHigh cfg.bpLimit with
    | some (true,counters) =>
      let v : Session N := { v with counters := counters }
      if faults.ledger then (v,.throws)
      else
        let admitted := v.apply (.admitRequest payload.length none)
        let request := (v.ledger.admitRequest payload.length none).2
        if faults.post then (admitted.apply (.rollback request),.throws)
        else ({ admitted with posted := v.posted ++ [⟨payload,request⟩] },.accept)
    | _ => (v,.reject .wouldBlock)

theorem snapshot_admitRequest (v : Session N) (bytes : ℕ) :
    (v.apply (.admitRequest bytes none)).snapshot = v.snapshot.admitRequest bytes := by
  change (v.ledger.books.update _ _).totals = _
  unfold Books.update
  split
  · rfl
  · rename_i hne
    exact absurd rfl hne

/-- A rejected write changes nothing, and an accepted one adds one request. -/
theorem tryWriteShared_spec (cfg : Config) (v : Session N) (payload : List UInt8) (seen : Counters)
    (seenActive : Bool) (faults : WriteFaults) :
    (∃ reason, v.tryWriteShared cfg payload seen seenActive faults = (v,.reject reason)) ∨
    (v.tryWriteShared cfg payload seen seenActive faults).2 = .throws ∨
    (v.tryWriteShared cfg payload seen seenActive faults).2 = .accept ∧
      (v.tryWriteShared cfg payload seen seenActive faults).1.snapshot = v.snapshot.admitRequest payload.length := by
  unfold tryWriteShared
  split
  · exact .inl ⟨_,rfl⟩
  · split
    · exact .inl ⟨_,rfl⟩
    · split
      · exact .inl ⟨_,rfl⟩
      · split
        · exact .inl ⟨_,rfl⟩
        · split
          · dsimp only
            split
            · exact .inr (.inl rfl)
            · split
              · exact .inr (.inl rfl)
              · exact .inr (.inr ⟨rfl,snapshot_admitRequest _ _⟩)
          · exact .inl ⟨_,rfl⟩

end Session

/-- `target_state`. -/
def Server.targetState {N : Type*} (s : Server N) : Option SendRejection :=
  if s.stopping then some (if s.cleanupDone then .notStarted else .stopping)
  else if s.generation = 0 then some .notStarted
  else none

/-- Where the call is with the first of its targets. -/
inductive FanoutPhase
  | validate
  | targetState
  | find
  | write
  | returned
  | thrown
  deriving DecidableEq, Repr

/-- A decision, and whether the session was a target of the server when it was made. -/
structure Decision where
  client : ℕ
  rejection : Option SendRejection
  present : Bool

/-- The call and the server. Nothing reads `decided`. -/
structure Broadcast (N : Type*) where
  server : Server N
  targets : List ℕ
  phase : FanoutPhase
  result : FanoutResult
  decided : List Decision

inductive BroadcastOp
  | server (op : ServerOp)
  | call (seen : Counters) (seenActive : Bool) (payloadFails : Bool) (faults : WriteFaults)

/-- The sessions that a call selects. -/
def Server.selected {N : Type*} (s : Server N) : List ℕ :=
  s.sessions.filter (fun client => ((s.objects[client]?).map Session.alive).getD false)

namespace Broadcast
variable {N : Type*} [CommRing N] (b : Broadcast N)

def begin (s : Server N) : Broadcast N := ⟨s,s.selected,.validate,.empty,[]⟩

/-- The decision for the first target. -/
def decide (client : ℕ) (rejection : Option SendRejection) : Broadcast N :=
  { b with targets := b.targets.tail
           phase := .validate
           result := b.result.add rejection
           decided := b.decided ++ [⟨client,rejection,client ∈ b.server.sessions⟩] }

/-- The session is written to under the mutex of the map. -/
def write (cfg : Config) (f : Fanout) (client : ℕ) (seen : Counters) (seenActive : Bool) (faults : WriteFaults) :
    Broadcast N :=
  match b.server.objects[client]? with
  | none => b.decide client (some .notReady)
  | some v =>
    let attempt := v.tryWriteShared cfg f.payload seen seenActive faults
    let b : Broadcast N := { b with server := b.server.modify client (fun _ => attempt.1) }
    match attempt.2 with
    | .accept => b.decide client none
    | .reject reason => b.decide client (some reason)
    | .throws => { b with phase := .thrown }

/-- The next step of the call. -/
def call (cfg : Config) (f : Fanout) (seen : Counters) (seenActive payloadFails : Bool) (faults : WriteFaults) :
    Broadcast N :=
  match b.phase, b.targets with
  | .returned, _ => b
  | .thrown, _ => b
  | _, [] => { b with phase := .returned }
  | .validate, client :: _ =>
    match (validatePayloadSize f.size cfg.bpLimit).or f.wrapperState with
    | some reason => b.decide client (some reason)
    | none => { b with phase := if payloadFails then .thrown else .targetState }
  | .targetState, client :: _ =>
    match b.server.targetState with
    | some reason => b.decide client (some reason)
    | none => { b with phase := .find }
  | .find, client :: _ =>
    if client ∈ b.server.sessions then { b with phase := .write } else b.decide client (some .notReady)
  | .write, client :: _ => b.write cfg f client seen seenActive faults

/-- A step of another thread or a strand that waits for a mutex of the call: a stop for
the admission of targets, and for the map what uses the map. -/
def waits : ServerOp → Bool
  | .stop => b.phase = .find ∨ b.phase = .write
  | .start _ => b.phase = .write
  | .resetStats => b.phase = .write
  | .publish => b.phase = .write
  | .handler index _ _ =>
    match b.server.posted[index]? with
    | some (.bind _) => false
    | _ => b.phase = .write
  | _ => false

def step (cfg : Config) (f : Fanout) : BroadcastOp → Broadcast N
  | .server op => if b.waits op then b else { b with server := b.server.step op }
  | .call seen seenActive payloadFails faults => b.call cfg f seen seenActive payloadFails faults

def run (cfg : Config) (f : Fanout) (ops : List BroadcastOp) : Broadcast N := ops.foldl (step · cfg f) b

/-- The requests that the decisions admit to a session. -/
def admissions (decided : List Decision) (client : ℕ) : ℕ :=
  decided.countP (fun d => d.client = client ∧ d.rejection = none)

/-- What holds of the decisions so far, for the targets that the call selected. -/
structure Exact (selected : List ℕ) (b : Broadcast N) : Prop where
  targets : b.decided.map Decision.client ++ b.targets = selected
  accepted : b.result.accepted = b.decided.countP (fun d => d.rejection = none)
  rejected : b.result.rejected = b.decided.countP (fun d => d.rejection ≠ none)
  tallied : b.result.Tallied
  present : ∀ d ∈ b.decided, d.rejection = none → d.present = true
  held : b.phase = .write → ∀ client ∈ b.targets.head?, client ∈ b.server.sessions
  returned : b.phase = .returned → b.targets = []

variable {b} {selected : List ℕ}

omit [CommRing N] in
theorem Exact.decide (h : Exact selected b) {client : ℕ} {rest : List ℕ} (ht : b.targets = client :: rest)
    {rejection : Option SendRejection} (hp : rejection = none → client ∈ b.server.sessions) :
    Exact selected (b.decide client rejection) := by
  constructor
  · have htargets := h.targets
    rw [ht] at htargets
    change (b.decided ++ [_]).map Decision.client ++ b.targets.tail = selected
    rw [ht, List.map_append, List.append_assoc]
    exact htargets
  · change (b.result.add rejection).accepted = (b.decided ++ [_]).countP _
    rw [List.countP_append, ← h.accepted]
    cases rejection <;> rfl
  · change (b.result.add rejection).rejected = (b.decided ++ [_]).countP _
    rw [List.countP_append, ← h.rejected]
    cases rejection <;> rfl
  · exact h.tallied.add rejection
  · intro d hd hnone
    obtain hd | hd := List.mem_append.mp hd
    · exact h.present d hd hnone
    · rw [List.mem_singleton.mp hd] at hnone ⊢
      exact decide_eq_true (hp hnone)
  · exact nofun
  · exact nofun

/-- The steps that do not wait leave the targets of the server as they are. -/
theorem sessions_of_not_waits {op : ServerOp} (hw : b.waits op = false) (hp : b.phase = .write) :
    (b.server.step op).sessions = b.server.sessions := by
  cases op with
  | start tlsFails => simp [waits, hp] at hw
  | stop => simp [waits, hp] at hw
  | resetStats => simp [waits, hp] at hw
  | accept =>
    unfold Server.step Server.accept
    dsimp only
    split <;> rfl
  | publish => simp [waits, hp] at hw
  | write client op counters active =>
    unfold Server.step
    dsimp only
    split
    · rfl
    · split <;> rfl
  | lose client =>
    unfold Server.step
    dsimp only
    split
    · rfl
    · split <;> rfl
  | close client =>
    unfold Server.step Server.close
    dsimp only
    split
    · rfl
    · split
      · rfl
      · unfold Server.onClose
        split <;> rfl
  | fireClose client =>
    unfold Server.step Server.onClose
    dsimp only
    split
    · rfl
    · split
      · split <;> rfl
      · rfl
  | finishStop index =>
    unfold Server.step
    dsimp only
    split <;> rfl
  | handler index bound retries =>
    unfold waits at hw
    dsimp only at hw
    split at hw
    · rename_i g hi
      unfold Server.step
      dsimp only
      split
      · rfl
      · rw [hi]
        change (Server.attemptPortBinding _ g bound retries).sessions = _
        unfold Server.attemptPortBinding
        split
        · rfl
        · split
          · rfl
          · split <;> rfl
    · simp [hp] at hw

/-- Everything a step of the call can do. -/
inductive CallStep (f : Fanout) (b : Broadcast N) : Broadcast N → Prop
  | stay : CallStep f b b
  | move (phase : FanoutPhase) (hw : phase = .write → ∀ client ∈ b.targets.head?, client ∈ b.server.sessions)
      (hr : phase = .returned → b.targets = []) : CallStep f b { b with phase := phase }
  | reject {client : ℕ} {rest : List ℕ} (ht : b.targets = client :: rest) (reason : SendRejection) :
      CallStep f b (b.decide client (some reason))
  | accept {client : ℕ} {rest : List ℕ} (ht : b.targets = client :: rest) (hp : b.phase = .write) {v w : Session N}
      (hv : b.server.objects[client]? = some v) (hw : w.snapshot = v.snapshot.admitRequest f.payload.length) :
      CallStep f b ({ b with server := b.server.modify client (fun _ => w) }.decide client none)
  | throws (server : Server N) : CallStep f b { b with server := server, phase := .thrown }

theorem write_step (cfg : Config) (f : Fanout) {client : ℕ} {rest : List ℕ} (ht : b.targets = client :: rest)
    (hp : b.phase = .write) (seen : Counters) (seenActive : Bool) (faults : WriteFaults) :
    CallStep f b (b.write cfg f client seen seenActive faults) := by
  unfold write
  split
  · exact .reject ht _
  · rename_i v hv
    obtain ⟨reason,hout⟩ | hout | ⟨hout,hw⟩ := v.tryWriteShared_spec cfg f.payload seen seenActive faults
    · have hsame : b.server.modify client (fun _ => v) = b.server := by
        have hobjects : b.server.objects.modify client (fun _ => v) = b.server.objects := by
          refine List.ext_getElem? (fun k => ?_)
          rw [List.getElem?_modify]
          by_cases hk : client = k
          · subst hk
            simp [hv]
          · simp [hk]
        unfold Server.modify
        rw [hobjects]
      dsimp only
      rw [hout]
      dsimp only
      rw [hsame]
      exact .reject ht reason
    · dsimp only
      rw [hout]
      exact .throws _
    · dsimp only
      rw [hout]
      exact .accept ht hp hv hw

theorem call_step (cfg : Config) (f : Fanout) (b : Broadcast N) (seen : Counters) (seenActive payloadFails : Bool)
    (faults : WriteFaults) : CallStep f b (b.call cfg f seen seenActive payloadFails faults) := by
  unfold call
  split
  · exact .stay
  · exact .stay
  · rename_i ht _ _
    exact .move _ nofun (fun _ => ht)
  · rename_i ht
    split
    · exact .reject ht _
    · cases payloadFails with
      | false => exact .move _ nofun nofun
      | true => exact .move _ nofun nofun
  · rename_i ht
    split
    · exact .reject ht _
    · exact .move _ nofun nofun
  · rename_i client _ _ ht
    split
    · rename_i hm
      refine .move _ (fun _ c hc => ?_) nofun
      rw [ht] at hc
      cases hc
      exact hm
    · exact .reject ht _
  · rename_i hp ht
    exact write_step cfg f ht hp seen seenActive faults

theorem Exact.callStep (h : Exact selected b) {f : Fanout} {c : Broadcast N} (hc : CallStep f b c) :
    Exact selected c := by
  cases hc with
  | stay => exact h
  | move phase hw hr => exact ⟨h.targets,h.accepted,h.rejected,h.tallied,h.present,hw,hr⟩
  | reject ht reason => exact h.decide ht nofun
  | accept ht hp hv hw =>
    have hmodify : ∀ s : Server N, s.sessions = b.server.sessions → Exact selected { b with server := s } := by
      intro s hs
      refine ⟨h.targets,h.accepted,h.rejected,h.tallied,h.present,fun hp c hc => ?_,h.returned⟩
      change c ∈ s.sessions
      rw [hs]
      exact h.held hp c hc
    rename_i client _ _ w
    refine (hmodify (b.server.modify client (fun _ => w)) rfl).decide ht (fun _ => ?_)
    exact h.held hp _ (by rw [ht]; rfl)
  | throws server => exact ⟨h.targets,h.accepted,h.rejected,h.tallied,h.present,nofun,nofun⟩

theorem Exact.step (h : Exact selected b) (cfg : Config) (f : Fanout) (op : BroadcastOp) :
    Exact selected (b.step cfg f op) := by
  cases op with
  | server op =>
    unfold Broadcast.step
    dsimp only
    split
    · exact h
    · rename_i hw
      refine ⟨h.targets,h.accepted,h.rejected,h.tallied,h.present,fun hp client hc => ?_,h.returned⟩
      rw [show (b.server.step op).sessions = b.server.sessions from sessions_of_not_waits (by simpa using hw) hp]
      exact h.held hp client hc
  | call seen seenActive payloadFails faults => exact h.callStep (call_step cfg f b seen seenActive payloadFails faults)

theorem Exact.run (h : Exact selected b) (cfg : Config) (f : Fanout) (ops : List BroadcastOp) :
    Exact selected (b.run cfg f ops) := by
  induction ops generalizing b with
  | nil => exact h
  | cons op ops ih => exact ih (h.step cfg f op)

omit [CommRing N] in
theorem exact_begin (s : Server N) : Exact s.selected (.begin s) :=
  ⟨rfl,rfl,rfl,rfl,nofun,nofun,nofun⟩

end Broadcast

/-- The requests that the ledger of a session has accepted. -/
def Server.acceptedBy (s : Server ℤ) (client : ℕ) : SendRequestTotals ℤ :=
  ((s.objects[client]?).map (fun v => v.snapshot.accepted)).getD 0

/-- One request of the payload. -/
def Fanout.request (f : Fanout) : SendRequestTotals ℤ := ⟨1,f.payload.length⟩

namespace Broadcast
variable {b : Broadcast ℤ} {f : Fanout}

/-- What the steps of the call, and only these, add to the requests of a session. -/
def gain (cfg : Config) (f : Fanout) (client : ℕ) : Broadcast ℤ → List BroadcastOp → SendRequestTotals ℤ
  | _, [] => 0
  | b, .server op :: ops => gain cfg f client (b.step cfg f (.server op)) ops
  | b, .call seen seenActive payloadFails faults :: ops =>
    let c := b.step cfg f (.call seen seenActive payloadFails faults)
    (c.server.acceptedBy client - b.server.acceptedBy client) + gain cfg f client c ops

theorem admissions_append (decided news : List Decision) (client : ℕ) :
    admissions (decided ++ news) client = admissions decided client + admissions news client :=
  List.countP_append

theorem admissions_single (d : Decision) (client : ℕ) :
    admissions [d] client = if d.client = client ∧ d.rejection = none then 1 else 0 := by
  simp [admissions, List.countP_singleton]

/-- A step of the call adds what it decides. -/
theorem CallStep.gain {c : Broadcast ℤ} (h : CallStep f b c) (hc : c.phase ≠ .thrown) (client : ℕ) :
    (c.server.acceptedBy client - b.server.acceptedBy client) + admissions b.decided client • f.request =
      admissions c.decided client • f.request := by
  cases h with
  | stay => rw [sub_self, zero_add]
  | move phase _ _ => rw [sub_self, zero_add]
  | reject ht reason =>
    rename_i k _
    change (b.server.acceptedBy client - b.server.acceptedBy client) + _ =
      admissions (b.decided ++ [_]) client • f.request
    rw [sub_self, zero_add, admissions_append, admissions_single, if_neg (fun h => nomatch h.2), add_zero]
  | accept ht hp hv hw =>
    rename_i k _ v w
    change ((b.server.modify k (fun _ => w)).acceptedBy client - b.server.acceptedBy client) + _ =
      admissions (b.decided ++ [_]) client • f.request
    rw [admissions_append, add_nsmul, add_comm]
    congr 1
    have hget : (b.server.modify k (fun _ => w)).objects[client]? =
        (b.server.objects[client]?).map (fun u => if k = client then w else u) := by
      change (b.server.objects.modify k _)[client]? = _
      rw [List.getElem?_modify]
      by_cases hk : k = client
      · simp [hk]
      · simp [hk]
    unfold Server.acceptedBy
    rw [hget]
    by_cases hk : k = client
    · subst hk
      rw [hv]
      rw [admissions_single, if_pos ⟨rfl,rfl⟩, one_nsmul]
      change (if k = k then w else v).snapshot.accepted - v.snapshot.accepted = f.request
      rw [if_pos rfl, hw]
      ext
      · change v.snapshot.accepted.requests + 1 - v.snapshot.accepted.requests = 1
        omega
      · change v.snapshot.accepted.bytes + (f.payload.length : ℤ) - v.snapshot.accepted.bytes = f.payload.length
        omega
    · rw [admissions_single, if_neg (fun h => hk h.1), zero_nsmul]
      cases b.server.objects[client]? with
      | none => exact sub_self _
      | some u =>
        rw [Option.map_some, if_neg hk]
        exact sub_self _
  | throws server => exact absurd rfl hc

theorem step_thrown (h : b.phase = .thrown) (cfg : Config) (op : BroadcastOp) :
    (b.step cfg f op).phase = .thrown := by
  cases op with
  | server op =>
    unfold step
    dsimp only
    split
    · exact h
    · exact h
  | call seen seenActive payloadFails faults =>
    unfold step call
    dsimp only
    rw [h]
    exact h

theorem run_thrown (h : b.phase = .thrown) (cfg : Config) (ops : List BroadcastOp) :
    (b.run cfg f ops).phase = .thrown := by
  induction ops generalizing b with
  | nil => exact h
  | cons op ops ih => exact ih (step_thrown h cfg op)

/-- Over a whole call the sessions gain what was decided for them. -/
theorem gain_run (cfg : Config) (ops : List BroadcastOp) (hr : (b.run cfg f ops).phase ≠ .thrown) (client : ℕ) :
    gain cfg f client b ops + admissions b.decided client • f.request =
      admissions (b.run cfg f ops).decided client • f.request := by
  induction ops generalizing b with
  | nil => exact zero_add _
  | cons op ops ih =>
    cases op with
    | server op =>
      have hdecided : (b.step cfg f (.server op)).decided = b.decided := by
        unfold step
        dsimp only
        split <;> rfl
      rw [← hdecided]
      exact ih hr
    | call seen seenActive payloadFails faults =>
      have hc : (b.step cfg f (.call seen seenActive payloadFails faults)).phase ≠ .thrown :=
        fun hc => hr (run_thrown hc cfg ops)
      have hstep := (call_step cfg f b seen seenActive payloadFails faults).gain hc client
      have hrest := ih hr
      unfold gain
      dsimp only
      rw [add_right_comm, add_comm]
      exact (congrArg (gain cfg f client _ ops + ·) hstep).trans hrest

end Broadcast

/-- A session that is decided once gains one request, or none. -/
theorem admissions_of_mem {decided : List Decision} (hn : (decided.map Decision.client).Nodup) {d : Decision}
    (hd : d ∈ decided) : Broadcast.admissions decided d.client = if d.rejection = none then 1 else 0 := by
  induction decided with
  | nil => cases hd
  | cons e decided ih =>
    obtain ⟨he,hn⟩ := List.nodup_cons.mp hn
    have hsplit := Broadcast.admissions_append [e] decided d.client
    rw [Broadcast.admissions_single] at hsplit
    refine hsplit.trans ?_
    obtain rfl | hd := List.mem_cons.mp hd
    · have hzero : Broadcast.admissions decided d.client = 0 := by
        refine List.countP_eq_zero.mpr (fun x hx hp => he ?_)
        have hp := of_decide_eq_true hp
        exact List.mem_map.mpr ⟨x,hx,hp.1⟩
      rw [hzero, add_zero]
      simp
    · rw [ih hn hd, if_neg, zero_add]
      exact fun hed => he (List.mem_map.mpr ⟨d,hd,hed.1.symm⟩)

theorem admissions_of_not_mem {decided : List Decision} {client : ℕ} (hc : client ∉ decided.map Decision.client) :
    Broadcast.admissions decided client = 0 := by
  refine List.countP_eq_zero.mpr (fun x hx hp => hc ?_)
  have hp := of_decide_eq_true hp
  exact List.mem_map.mpr ⟨x,hx,hp.1⟩

/-- The result of a broadcast is exact. Its targets are the live sessions that it
selected, each is decided once, exactly the sessions that accepted gained one request of
the payload from this call, and a session that had left the server by then gained none. -/
theorem broadcast_result_exact (cfg : Config) (f : Fanout) (s : Server ℤ) (hn : s.sessions.Nodup)
    (ops : List BroadcastOp) (hr : ((Broadcast.begin s).run cfg f ops).phase = .returned) :
    let b := (Broadcast.begin s).run cfg f ops
    let gained := fun client => Broadcast.gain cfg f client (.begin s) ops
    b.result.targetCount = s.selected.length ∧ b.decided.map Decision.client = s.selected ∧ s.selected.Nodup ∧
      b.result.accepted = (s.selected.filter (fun client => gained client = f.request)).length ∧
      (∀ client, gained client = f.request ∨ gained client = 0) ∧
      (∀ client ∉ s.selected, gained client = 0) ∧
      b.result.rejected + b.result.accepted = s.selected.length ∧ b.result.Tallied ∧
      ∀ d ∈ b.decided, d.present = false → d.rejection ≠ none ∧ gained d.client = 0 := by
  intro b gained
  have hexact := (Broadcast.exact_begin s).run cfg f ops
  have htargets : b.decided.map Decision.client = s.selected := by
    have hall := hexact.targets
    rwa [hexact.returned hr, List.append_nil] at hall
  have hnodup : s.selected.Nodup := hn.filter _
  have hdecided : (b.decided.map Decision.client).Nodup := htargets ▸ hnodup
  have hgain : ∀ client, gained client = Broadcast.admissions b.decided client • f.request := by
    intro client
    have hrun := Broadcast.gain_run (b := .begin s) (f := f) cfg ops (by rw [hr]; exact nofun) client
    change gained client + 0 • f.request = _ at hrun
    rwa [zero_nsmul, add_zero] at hrun
  have hone : f.request ≠ 0 := fun h => one_ne_zero (congrArg SendRequestTotals.requests h)
  have hmem : ∀ d ∈ b.decided, gained d.client = if d.rejection = none then f.request else 0 := by
    intro d hd
    rw [hgain, admissions_of_mem hdecided hd]
    split
    · exact one_nsmul _
    · exact zero_nsmul _
  have hout : ∀ client ∉ s.selected, gained client = 0 := by
    intro client hc
    rw [hgain, admissions_of_not_mem (htargets ▸ hc), zero_nsmul]
  have hcount : b.result.rejected + b.result.accepted = s.selected.length := by
    rw [hexact.accepted, hexact.rejected, ← htargets, List.length_map, add_comm]
    rw [List.length_eq_countP_add_countP (fun d : Decision => decide (d.rejection = none))]
    congr 2
    funext d
    simp
  refine ⟨(add_comm _ _).trans hcount,htargets,hnodup,?_,fun client => ?_,hout,hcount,hexact.tallied,?_⟩
  · rw [hexact.accepted, ← htargets, List.filter_map, List.length_map, List.countP_eq_length_filter]
    refine congrArg List.length (List.filter_congr (fun d hd => ?_))
    change decide (d.rejection = none) = decide (gained d.client = f.request)
    rw [hmem d hd]
    split
    · rename_i hnone
      simp [hnone]
    · rename_i hsome
      simp [hsome, hone.symm]
  · by_cases hc : client ∈ s.selected
    · rw [← htargets] at hc
      obtain ⟨d,hd,rfl⟩ := List.mem_map.mp hc
      rw [hmem d hd]
      split
      · exact .inl rfl
      · exact .inr rfl
    · exact .inr (hout client hc)
  · intro d hd hp
    have hsome : d.rejection ≠ none := by
      intro hnone
      rw [hexact.present d hd hnone] at hp
      cases hp
    exact ⟨hsome,by rw [hmem d hd, if_neg hsome]⟩

/-- Two sessions are selected, and the second one leaves before it is decided. -/
theorem broadcast_result_leaving :
    let cfg : Config := ⟨1024,le_rfl,by norm_num⟩
    let f : Fanout := ⟨[1,2,3],true,none⟩
    let s := (Server.init : Server ℤ).run [.start false,.handler 0 true false,.accept,.publish,.accept,.publish]
    let call : BroadcastOp := .call .zero false false ⟨false,false⟩
    let ops := [call,call,call,call,.server (.close 1),.server (.handler 0 true false),call,call,call,call]
    ((Broadcast.begin s).run cfg f ops).phase = .returned ∧
      ((Broadcast.begin s).run cfg f ops).result.rejected + ((Broadcast.begin s).run cfg f ops).result.accepted = 2 := by
  intro cfg f s call ops
  have hr : ((Broadcast.begin s).run cfg f ops).phase = .returned := by decide +kernel
  refine ⟨hr,?_⟩
  have hcount := (broadcast_result_exact cfg f s (by decide) ops hr).2.2.2.2.2.2.1
  exact hcount

end Wirestead.Transport.TcpServer
