import Wirestead.Transport.TcpClient.Fencing

/-! # The strand keeps the fence

Every handler and every completion keeps the invariant of the fence, so whole runs do:
whatever the order of admissions, losses, retries, late completions, stops and restarts.
-/
namespace Wirestead.Transport.TcpClient
open Diagnostics

namespace State
variable {N : Type*} [CommRing N] {s t u : State N}

section Strand
variable (cfg : Config)

omit [CommRing N] in
/-- Buffers that are covered may be queued anywhere. -/
theorem requeued_safe (s : State N) (tx pending : List TrackedBuffer)
    (hq : ∀ item, item ∈ tx ∨ item ∈ pending → s.Covered item ∨ s.Holds item) :
    s.Safe { s with tx := tx, pending := pending } := by
  intro hg
  have hcov : ∀ item, item ∈ tx ∨ item ∈ pending → s.Covered item :=
    fun item hi => (hq item hi).elim id (hg.covered item)
  refine ⟨⟨hg.valid,?_,hg.fenced,hg.token_lt,hg.token_unique,hg.started⟩,fun _ hi => hi⟩
  rintro item (hi | hi | hi)
  · exact hcov item (.inl hi)
  · exact hcov item (.inr hi)
  · exact hg.covered item (.inr (.inr hi))

omit [CommRing N] in
theorem pushTx_safe (s : State N) {item : TrackedBuffer} (hi : s.Covered item) :
    s.Safe (s.pushTx item) := by
  refine s.requeued_safe (s.tx ++ [item]) s.pending (fun i h => ?_)
  rcases h with h | h
  · rcases List.mem_append.mp h with h | h
    · exact .inr (.inl h)
    · exact .inl (List.mem_singleton.mp h ▸ hi)
  · exact .inr (.inr (.inl h))

omit [CommRing N] in
theorem pushPending_safe (s : State N) {item : TrackedBuffer} (hi : s.Covered item) :
    s.Safe (s.pushPending item) := by
  refine s.requeued_safe s.tx (s.pending ++ [item]) (fun i h => ?_)
  rcases h with h | h
  · exact .inr (.inl h)
  · rcases List.mem_append.mp h with h | h
    · exact .inr (.inr (.inl h))
    · exact .inl (List.mem_singleton.mp h ▸ hi)

omit [CommRing N] in
theorem returned_safe (s : State N) {buffers : List TrackedBuffer}
    (hb : ∀ item ∈ buffers, s.Covered item) : s.Safe { s with tx := buffers ++ s.tx } := by
  refine s.requeued_safe (buffers ++ s.tx) s.pending (fun i h => ?_)
  rcases h with h | h
  · rcases List.mem_append.mp h with h | h
    · exact .inl (hb i h)
    · exact .inr (.inl h)
  · exact .inr (.inr (.inl h))

omit [CommRing N] in
/-- A batch whose requests are all live is written on the instance that accepted them. -/
theorem recordWrite_safe (s : State N) {b : WriteBatch} (ht : b.token = s.nextToken)
    (hb : ∀ item ∈ b.buffers, s.Covered item)
    (hlive : (s.ledger.beginBatch (b.buffers.map (·.request))).2 = true) :
    s.Safe (s.recordWrite b (s.ledger.beginBatch (b.buffers.map (·.request))).1) := by
  intro hg
  have hr := hg.valid.retires_beginBatch (b.buffers.map (·.request))
  have hwas := hg.valid.beginBatch_live hlive
  set ledger := (s.ledger.beginBatch (b.buffers.map (·.request))).1
  have hcov : ∀ item, s.Covered item → (s.recordWrite b ledger).Covered item := by
    rintro item ⟨h1,h2⟩
    exact ⟨h1.trans hr.nextId.ge,fun hl => List.mem_cons_of_mem _ (h2 (hr.live _ hl))⟩
  refine ⟨⟨hr.valid,fun item hi => hcov item (hg.covered item hi),⟨?_,hg.fenced⟩,?_,?_,?_⟩,hcov⟩
  · intro item hi
    exact (hb item hi).2 (hwas _ (List.mem_map_of_mem hi))
  · intro c b' hb'
    change b'.token < s.nextToken + 1
    rcases List.mem_cons.mp hb' with he | he
    · cases he
      omega
    · have := hg.token_lt c b' he
      omega
  · intro c b₁ c' b₂ h1 h2 heq
    rcases List.mem_cons.mp h1 with h1 | h1
    · rcases List.mem_cons.mp h2 with h2 | h2
      · cases h1
        cases h2
        rfl
      · have := hg.token_lt c' b₂ h2
        cases h1
        omega
    · rcases List.mem_cons.mp h2 with h2 | h2
      · have := hg.token_lt c b₁ h1
        cases h2
        omega
      · exact hg.token_unique c b₁ c' b₂ h1 h2 heq
  · exact fun seq c b' hb' => List.mem_cons_of_mem _ (hg.started seq c b' hb')

omit [CommRing N] in
theorem startWrite_safe (s : State N) (seq : ℕ) {b : WriteBatch}
    (ht : .asyncWrite s.connectionSeq b ∈ s.trace) (hb : ∀ item ∈ b.buffers, s.Covered item) :
    s.Safe (s.startOperation (.write seq s.connectionSeq b)) := by
  intro hg
  have hflight : ∀ seq' c b', (s.startOperation (.write seq s.connectionSeq b)).InFlight seq' c b' →
      s.InFlight seq' c b' ∨ c = s.connectionSeq ∧ b' = b := by
    rintro seq' c b' ⟨o,ho,hop⟩
    rcases List.mem_append.mp ho with ho | ho
    · exact .inl ⟨o,ho,hop⟩
    · rw [List.mem_singleton.mp ho] at hop
      cases hop
      exact .inr ⟨rfl,rfl⟩
  refine ⟨⟨hg.valid,?_,hg.fenced,hg.token_lt,hg.token_unique,?_⟩,fun _ hi => hi⟩
  · rintro item (hi | hi | hi | ⟨seq',c,b',hb',hi⟩)
    · exact hg.covered item (.inl hi)
    · exact hg.covered item (.inr (.inl hi))
    · exact hg.covered item (.inr (.inr (.inl hi)))
    · rcases hflight seq' c b' hb' with hb' | ⟨-,rfl⟩
      · exact hg.covered item (.inr (.inr (.inr ⟨seq',c,b',hb',hi⟩)))
      · exact hb item hi
  · intro seq' c b' hb'
    rcases hflight seq' c b' hb' with hb' | ⟨rfl,rfl⟩
    · exact hg.started seq' c b' hb'
    · exact ht

theorem handOver_safe (s : State N) (seq : ℕ) {buffers : List TrackedBuffer} (bytes : ℕ)
    (hb : ∀ item ∈ buffers, s.Covered item) : s.Safe (s.handOver cfg seq buffers bytes) := by
  unfold handOver
  dsimp only
  split_ifs with hrefused
  · exact (s.returned_safe hb).trans (safe_of_set rfl)
  have hlive : (s.ledger.beginBatch (buffers.map (·.request))).2 = true := by
    simpa using (not_or.mp hrefused).2
  have hrec := s.recordWrite_safe (b := ⟨s.nextToken,buffers,bytes⟩) rfl hb hlive
  intro hg
  obtain ⟨hg',hcov⟩ := hrec hg
  unfold initiateWrite
  dsimp only
  set t := s.recordWrite ⟨s.nextToken,buffers,bytes⟩ (s.ledger.beginBatch (buffers.map (·.request))).1
  split_ifs
  · exact hrec.trans (t.markDisconnected_safe.trans (safe_lifecycle.handleClose (giveWay_safe cfg) _ trivial _)) hg
  · exact hrec.trans (t.startWrite_safe seq List.mem_cons_self (fun item hi => hcov item (hb item hi))) hg

theorem doWrite_safe (s : State N) (seq : ℕ) : s.Safe (s.doWrite cfg seq) := by
  unfold doWrite
  split_ifs
  · exact (quiet_of_cleared rfl).safe
  · exact safe_of_set rfl
  · exact safe_of_set rfl
  dsimp only
  have happ := (takeGatherBatch_append s.tx).1
  set batch := takeGatherBatch s.tx
  set t : State N := { s with writing := true, tx := batch.2.1 }
  have ht : s.Quiet t := by
    refine ⟨rfl,rfl,rfl,rfl,?_,fun _ h => .inl h,fun _ _ _ h => h⟩
    rintro item (hi | hi)
    · exact .inl (happ ▸ List.mem_append_right _ hi)
    · exact .inr hi
  intro hg
  obtain ⟨hg',hcov⟩ := ht.safe hg
  obtain ⟨hg'',hcov'⟩ := t.giveWay_safe cfg hg'
  refine (ht.safe.trans (t.giveWay_safe cfg)).trans (handOver_safe cfg _ seq _ ?_) hg
  intro item hi
  exact hcov' item (hcov item (hg.covered item (.inl (happ ▸ List.mem_append_left _ hi))))

theorem reportBackpressure_safe (s : State N) (queuedBytes : ℕ) :
    s.Safe (s.reportBackpressure cfg queuedBytes) := by
  unfold reportBackpressure
  split
  · exact .refl s
  refine reportBackpressure_respects (bpFields cfg) .refl .trans ?_ ?_ ?_ ?_ ?_ queuedBytes s
  · exact fun b t => (t.backpressure_quiet b).safe
  · exact fun n t => safe_of_set rfl
  · exact fun _ t => t.giveWay_safe cfg
  · intro t
    refine Quiet.safe ⟨rfl,rfl,rfl,rfl,?_,fun _ h => .inl h,fun _ _ _ h => h⟩
    rintro item (hi | hi)
    · exact List.mem_append.mp hi
    · cases hi
  · intro t
    change t.Safe (if t.writing then t else t.doWrite cfg t.currentSeq)
    split
    · exact .refl t
    · exact t.doWrite_safe cfg _

theorem reportThenWrite_safe (s : State N) : s.Safe (s.reportThenWrite cfg) := by
  unfold reportThenWrite writeIfIdle
  have h := s.reportBackpressure_safe cfg s.counters.queueBytes
  split
  · exact h
  · exact h.trans (doWrite_safe cfg _ _)

theorem rejectEnqueued_safe (s : State N) (item : TrackedBuffer) :
    s.Safe (s.rejectEnqueued cfg item) := by
  have h := s.safe_ledger (fun hv => hv.retires_discard item.request .queuePressure)
  exact (h.trans ((safe_lifecycle.recordError _ _ _ _ _).trans (counters_quiet _ _).safe)).trans
    (reportBackpressure_safe cfg _ _)

theorem routeEnqueuedBuffer_safe (s : State N) {item : TrackedBuffer} (hi : s.Covered item) :
    s.Safe (s.routeEnqueuedBuffer cfg item) := by
  have hset : ∀ counters, s.Safe (s.setCounters counters) :=
    fun counters => (s.counters_quiet counters).safe
  unfold routeEnqueuedBuffer
  split
  · exact hset _
  split
  · exact (hset _).trans (pushPending_safe _ hi)
  · set t := s.setCounters (commitReservedLimitBytes s.counters .queue item.size)
    exact ((hset _).trans (t.pushTx_safe hi)).trans (reportThenWrite_safe cfg _)
  · exact s.rejectEnqueued_safe cfg item

theorem routeTryBuffer_safe (s : State N) {item : TrackedBuffer} (hi : s.Covered item) :
    s.Safe (s.routeTryBuffer cfg item) := by
  unfold routeTryBuffer
  split
  · exact (s.counters_quiet _).safe
  · exact (s.pushTx_safe hi).trans (reportThenWrite_safe cfg _)

theorem releaseWritten_safe (s : State N) (batch : WriteBatch) : s.Safe (s.releaseWritten cfg batch) :=
  (s.counters_quiet _).safe.trans (reportBackpressure_safe cfg _ _)

theorem settleWrite_safe (s : State N) (seq connection : ℕ) (batch : WriteBatch) (ec : ErrorCode)
    (n : ℕ) : s.Safe (s.settleWrite seq connection batch ec n) := by
  have h := s.safe_ledger (fun hv => hv.retires_completeBatch
    (batch.buffers.map (fun item => (item.request,item.size))) n)
  unfold settleWrite
  dsimp only
  split
  · exact h.trans (markDisconnected_safe _)
  · exact h

theorem writeAborted_safe (s : State N) (batch : WriteBatch) : s.Safe (s.writeAborted cfg batch) :=
  (s.releaseWritten_safe cfg batch).trans (writing_quiet _ false).safe

theorem writeFailed_safe (s : State N) (seq : ℕ) {batch : WriteBatch} (ec : ErrorCode)
    (hb : ∀ item ∈ batch.buffers, s.Covered item) : s.Safe (s.writeFailed cfg seq batch ec) :=
  ((s.returned_safe hb).trans ((safe_lifecycle.recordError _ _ _ _ _).trans (writing_quiet _ false).safe)).trans
    (safe_lifecycle.handleClose (giveWay_safe cfg) _ trivial ec)

theorem writeSucceeded_safe (s : State N) (seq : ℕ) (batch : WriteBatch) (n : ℕ) :
    s.Safe (s.writeSucceeded cfg seq batch n) := by
  have hnote : s.Safe (s.noteTraffic seq n) := safe_lifecycle.noteTraffic s trivial n
  have h := hnote.trans (releaseWritten_safe cfg _ batch)
  unfold writeSucceeded
  dsimp only
  split_ifs
  · exact h.trans (writing_quiet _ false).safe
  · exact h.trans (doWrite_safe cfg _ seq)

omit [CommRing N] in
theorem activeWrite_quiet (s : State N) (active : Option WriteBatch) :
    s.Quiet { s with activeWrite := active } := quiet_of_set rfl

theorem onWrite_safe (s : State N) (seq connection : ℕ) {batch : WriteBatch} (ec : ErrorCode) (n : ℕ)
    (hb : ∀ item ∈ batch.buffers, s.Covered item) : s.Safe (s.onWrite cfg seq connection batch ec n) := by
  intro hg
  have hsettle := s.settleWrite_safe seq connection batch ec n
  have hcov := (hsettle hg).2
  unfold onWrite
  dsimp only
  generalize s.settleWrite seq connection batch ec n = t at hsettle hcov ⊢
  have hreset := t.activeWrite_quiet none
  refine hsettle.trans ?_ hg
  split_ifs
  · exact (t.activeWrite_quiet _).safe
  · exact hreset.safe.trans (writeAborted_safe cfg _ batch)
  · exact hreset.safe.trans (writeFailed_safe cfg _ seq ec
      (fun item hi => hreset.covered (hcov item (hb item hi))))
  · exact hreset.safe.trans (writeSucceeded_safe cfg _ seq batch n)

theorem runHandler_safe (s : State N) (handler : Handler)
    (hi : ∀ item, handler.item? = some item → s.Covered item) : s.Safe (s.runHandler cfg handler) := by
  cases handler with
  | write item seq connection =>
    change s.Safe (s.onPosted cfg item seq connection)
    unfold onPosted
    split_ifs
    · exact .refl s
    · exact (s.counters_quiet _).safe
    · exact s.routeEnqueuedBuffer_safe cfg (hi item rfl)
  | tryWrite item seq connection =>
    change s.Safe (s.onTryPosted cfg item seq connection)
    unfold onTryPosted
    split_ifs
    · exact .refl s
    · exact .refl s
    · exact s.routeTryBuffer_safe cfg (hi item rfl)
  | kick seq connection =>
    change s.Safe (s.onKick cfg seq connection)
    unfold onKick
    split_ifs
    · exact .refl s
    · exact .refl s
    · exact s.doWrite_safe cfg seq
  | start seq => exact safe_lifecycle.startOn (giveWay_safe cfg) s trivial (.inl trivial)
  | stopCleanup => exact safe_lifecycle.toCleanup.stopCleanupWith (safe_lifecycle.notifyState (giveWay_safe cfg)) s
  | failReceive connection run => exact safe_lifecycle.failReceiveOn (giveWay_safe cfg) s connection trivial

theorem runCompletion_safe (s : State N) (r : Completion) (operation : Operation)
    (hb : ∀ b, operation.batch? = some b → ∀ item ∈ b.buffers, s.Covered item) :
    s.Safe (s.runCompletion cfg r operation) := by
  cases ho : operation.batch? with
  | none => exact safe_lifecycle.runCompletion (giveWay_safe cfg) s r trivial ho (fun _ _ => .inl trivial)
  | some batch =>
    cases operation with
    | write seq connection batch => exact s.onWrite_safe cfg seq connection r.ec r.n (hb batch rfl)
    | _ => cases ho

theorem start_safe (s : State N) : s.Safe s.start := by
  have hreset : ∀ t : State N, t.Safe t.resetStartState := by
    intro t
    have h : t.Safe t.resetRun.markDisconnected :=
      (safe_of_set rfl : t.Safe t.resetRun).trans (markDisconnected_safe _)
    exact h.trans (quiet_of_view (.inr (.inl rfl))).safe
  unfold start
  split
  · exact .refl s
  · have h : s.Safe { s with backpressureActive := false, lifecycleSeq := s.lifecycleSeq + 1
                             currentSeq := s.lifecycleSeq + 1 } := safe_of_set rfl
    exact (h.trans (hreset _)).trans (post_quiet _ rfl).safe

/-- Taking the oldest handler off the strand. -/
theorem step_handler_safe (s : State N) (script : Script) : s.Safe (s.step cfg (.handler script)) := by
  unfold step
  dsimp only
  cases hp : s.posted with
  | nil => exact .refl s
  | cons handler rest =>
    have hpop : s.Quiet { s with posted := rest, script := script } :=
      ⟨rfl,rfl,rfl,rfl,fun _ h => h,fun k hk => .inl (hp ▸ List.mem_cons_of_mem _ hk),fun _ _ _ h => h⟩
    intro hg
    refine hpop.safe.trans (runHandler_safe cfg _ handler (fun item hi => hpop.covered ?_)) hg
    exact hg.covered item (.inr (.inr (.inl ⟨handler,hp ▸ List.mem_cons_self,hi⟩)))

theorem step_complete_safe (s : State N) (index : ℕ) (result : Completion) (script : Script) :
    s.Safe (s.step cfg (.complete index result script)) := by
  unfold step
  dsimp only
  cases ho : s.outstanding[index]? with
  | none => exact .refl s
  | some o =>
    have hpop : s.Quiet { s with outstanding := s.outstanding.eraseIdx index, script := script } :=
      ⟨rfl,rfl,rfl,rfl,fun _ h => h,fun _ h => .inl h,
        fun _ _ _ ⟨o',ho',hop⟩ => ⟨o',List.mem_of_mem_eraseIdx ho',hop⟩⟩
    intro hg
    refine (hpop.safe.trans (runCompletion_safe cfg _ result o.operation ?_)).trans (safe_lifecycle.ioCompletion _) hg
    intro b hb item hi
    refine hpop.covered (hg.covered item (.inr (.inr (.inr ?_))))
    cases hop : o.operation with
    | write seq c b' =>
      rw [hop] at hb
      cases hb
      exact ⟨seq,c,b,⟨o,List.mem_of_getElem? ho,hop⟩,hi⟩
    | _ =>
      rw [hop] at hb
      cases hb

theorem step_safe (s : State N) (op : StepOp) : s.Safe (s.step cfg op) := by
  cases op with
  | caller op => exact s.callerStep_safe cfg op
  | start => exact s.start_safe
  | handler script => exact s.step_handler_safe cfg script
  | complete index result script => exact s.step_complete_safe cfg index result script

theorem good_init (settings : Settings) : (init settings : State N).Good := by
  refine ⟨Ledger.valid_new,?_,trivial,nofun,nofun,?_⟩
  · rintro item (h | h | ⟨k,hk,-⟩ | ⟨seq,c,b,⟨o,ho,-⟩,-⟩)
    · cases h
    · cases h
    · cases hk
    · cases ho
  · rintro seq c b ⟨o,ho,-⟩
    cases ho

theorem Good.run {s : State N} (h : s.Good) (ops : List StepOp) : (s.run cfg ops).Good := by
  induction ops generalizing s with
  | nil => exact h
  | cons op ops ih => exact ih (s.step_safe cfg op h).1

/-- Every buffer that was passed to `async_write` on an instance had been accepted before,
on that instance and while connected. -/
def WritesFenced (s : State N) : Prop :=
  ∀ later earlier c b, s.trace = later ++ .asyncWrite c b :: earlier →
    ∀ item ∈ b.buffers, .accepted item c true ∈ earlier

/-- The completion of a write of another instance changes neither the queues nor the
active batch of the present instance, whatever its result. -/
def StaleCompletionsInert (s : State N) : Prop :=
  ∀ index seq c b cancelled, s.outstanding[index]? = some ⟨.write seq c b,cancelled⟩ →
    c ≠ s.connectionSeq → ∀ result script,
      let t := s.step cfg (.complete index result script)
      t.tx = s.tx ∧ t.pending = s.pending ∧ t.counters.queueBytes = s.counters.queueBytes ∧
      t.writing = s.writing ∧
      ∀ active, s.activeWrite = some active → .asyncWrite s.connectionSeq active ∈ s.trace →
        t.activeWrite = some active

/-- Such a completion reaches the ledger and its own batch only. -/
theorem onWrite_stale (s : State N) (seq : ℕ) {connection : ℕ} (batch : WriteBatch) (ec : ErrorCode) (n : ℕ)
    (h : connection ≠ s.connectionSeq) : ∃ ledger, s.onWrite cfg seq connection batch ec n =
      ({ s with ledger := ledger } : State N).clearBatch batch.token := by
  unfold onWrite settleWrite
  dsimp only
  rw [if_pos (decide_eq_false h), if_neg (fun h' => h h'.1)]
  exact ⟨_,rfl⟩

theorem Good.staleCompletionsInert {s : State N} (h : s.Good) : s.StaleCompletionsInert cfg := by
  intro index seq c b cancelled ho hc result script t
  obtain ⟨ledger,hw⟩ := onWrite_stale cfg
    { s with outstanding := s.outstanding.eraseIdx index, script := script } seq b result.ec result.n hc
  have ht : t = (({ s with outstanding := s.outstanding.eraseIdx index, script := script
                           ledger := ledger } : State N).clearBatch b.token).ioCompletion := by
    change s.step cfg (.complete index result script) = _
    unfold step
    dsimp only
    rw [ho]
    exact congrArg ioCompletion hw
  have hio : ∀ u : State N, u.ioCompletion.tx = u.tx ∧ u.ioCompletion.pending = u.pending ∧
      u.ioCompletion.counters = u.counters ∧ u.ioCompletion.writing = u.writing ∧
      u.ioCompletion.activeWrite = u.activeWrite := by
    intro u
    unfold ioCompletion
    split <;> exact ⟨rfl,rfl,rfl,rfl,rfl⟩
  obtain ⟨h1,h2,h3,h4,h5⟩ := hio (({ s with outstanding := s.outstanding.eraseIdx index
                                            script := script
                                            ledger := ledger } : State N).clearBatch b.token)
  rw [ht]
  refine ⟨h1,h2,congrArg Counters.queueBytes h3,h4,fun active ha htrace => h5.trans ?_⟩
  have hstarted := h.started seq c b ⟨_,List.mem_of_getElem? ho,rfl⟩
  have hne : active.token ≠ b.token :=
    fun he => hc (h.token_unique _ _ _ _ hstarted htrace he.symm)
  change s.activeWrite.map _ = some active
  rw [ha, Option.map_some, if_neg hne]

/-- No data crosses a reconnect, in any run of the client. -/
theorem run_never_crosses (settings : Settings) (ops : List StepOp) :
    ((init settings : State N).run cfg ops).WritesFenced ∧
    ((init settings : State N).run cfg ops).StaleCompletionsInert cfg := by
  have h := (good_init (N := N) settings).run cfg ops
  exact ⟨fun _ _ _ _ ht => h.fenced.split ht,h.staleCompletionsInert cfg⟩

end Strand
end State
end Wirestead.Transport.TcpClient
