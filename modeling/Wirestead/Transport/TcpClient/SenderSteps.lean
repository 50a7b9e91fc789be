import Wirestead.Transport.TcpClient.SenderCalls

/-! # The writer and the steps of the client as moves

The writer takes a batch, gives way and hands it over; the pressure report may empty
`pending_` and start the writer. From these the handlers of posted writes and the
completions of writes are assembled, and then every step of a run.
-/
namespace Wirestead.Transport.TcpClient
open Diagnostics Sizes

namespace State
variable {N : Type*} [CommRing N] {cfg : Config} {allow : Flaw → Prop} {h : Hand} {s t : State N}

section Writer

/-- The handover of a batch. A connection whose write cannot be started is lost. -/
theorem handOver_reaches {seq : ℕ} {buffers : List TrackedBuffer} (hs : s.sender.Ready allow)
    (hseq : seq = s.currentSeq) :
    Reaches cfg allow (.batch buffers) s .empty (s.handOver cfg seq buffers (totalBytes buffers)) := by
  unfold handOver
  dsimp only
  split
  · rename_i href
    exact .single hs (.putBack s.sender buffers (href.imp id id)) rfl rfl
  rename_i hok
  have hstop : s.stopRequested = false := by simpa using (not_or.mp hok).1
  have hbegin : (s.ledger.beginBatch (buffers.map (·.request))).2 = true := by simpa using (not_or.mp hok).2
  unfold initiateWrite
  dsimp only
  set r := s.recordWrite ⟨s.nextToken,buffers,totalBytes buffers⟩
    (s.ledger.beginBatch (buffers.map (·.request))).1 with hr
  have hrecord : r.sender = s.sender.record buffers (totalBytes buffers) := rfl
  split
  · have hlost : r.markDisconnected.discardConnectionWrites.sender =
        (s.sender.record buffers (totalBytes buffers)).lose := by
      unfold Sender.lose
      rw [← hrecord, ← markDisconnected_sender]
      rfl
    have hlose : Reaches cfg allow (.batch buffers) s .empty r.markDisconnected.discardConnectionWrites := by
      refine .single hs ?_ ((congrArg Sender.currentSeq hlost).trans (Sender.lose_currentSeq _))
        ((congrArg Sender.script hlost).trans (Sender.lose_script _))
      rw [hlost]
      exact .writeThrows s.sender buffers hstop hbegin
    have hdown := markDisconnected_eq r.markDisconnected_connected
    have hcur : r.markDisconnected.currentSeq = s.currentSeq :=
      (congrArg Sender.currentSeq r.markDisconnected_sender).trans r.sender.disconnect_currentSeq
    have hafter : Runs cfg allow r.markDisconnected.markDisconnected.discardConnectionWrites
        (r.markDisconnected.handleClose cfg seq .noBufferSpace) :=
      runs_lifecycle.afterClose giveWay_runs trivial (by simp [hcur, hseq])
    rw [hdown] at hafter
    exact hlose.trans (hafter hlose.ready)
  · refine .single hs (.write s.sender buffers _ hstop hbegin ?_) rfl rfl
    subst hseq
    simp [writes, State.startOperation, hr, recordWrite, sender, Operation.flight?]

theorem doWrite_reaches {seq : ℕ} (hs : s.sender.Ready allow) (hmay : h.MayWrite s.writing)
    (hseq : seq = s.currentSeq) : Reaches cfg allow h s .empty (s.doWrite cfg seq) := by
  unfold doWrite
  split_ifs with h1 h2 h3
  · exact .single hs (.halt h s.sender hmay h1) rfl rfl
  · exact .single hs (.idle h s.sender hmay (.inl h2)) rfl rfl
  · refine .single hs (.idle h s.sender hmay (.inr ?_)) rfl rfl
    rcases h3 with h3 | h3
    · exact .inl h3
    · refine .inr (fun ho => ?_)
      rcases h3 with h3 | h3
      · exact ho.2.1 h3
      · exact ho.2.2 h3
  · obtain ⟨htx,hclosed,herror⟩ := not_or.mp h3 |>.imp_right not_or.mp
    obtain ⟨happend,hbytes⟩ := takeGatherBatch_append s.tx
    have hopen : s.stopRequested = false ∧ s.connected = true := ⟨by simpa using h1,by simpa using h2⟩
    have htake : Reaches cfg allow h s (.batch (takeGatherBatch s.tx).1)
        { s with writing := true, tx := (takeGatherBatch s.tx).2.1 } :=
      .single hs (.take h s.sender _ _ hmay ⟨hopen.1,hclosed,herror⟩ hopen.2 happend.symm
        (takeGatherBatch_ne_nil htx)) rfl rfl
    have hgive : ∀ t : State N, t.sender.Ready allow →
        Reaches cfg allow (.batch (takeGatherBatch s.tx).1) t (.batch (takeGatherBatch s.tx).1) (t.giveWay cfg) :=
      fun t ht => (giveWay_turned ht).toReaches
    have hturn := htake.trans (hgive _ htake.ready)
    dsimp only
    rw [hbytes]
    exact hturn.trans (handOver_reaches hturn.ready (hseq.trans hturn.currentSeq.symm))

end Writer

section Report

/-- OFF without what follows it. -/
def relieved (cfg : Config) (s : State N) : State N :=
  if ¬ (s.stopRequested ∨ s.stopping) ∧ s.backpressureActive = true ∧ s.counters.queueBytes ≤ cfg.bpLow then
    { s with counters := ⟨add s.counters.queueBytes s.counters.pendingBytes,0,s.counters.inflightBytes⟩
             tx := s.tx ++ s.pending
             pending := []
             backpressureActive := false }
  else s

omit [CommRing N] in
theorem relieved_sender (cfg : Config) (s : State N) : (s.relieved cfg).sender = s.sender.relieve cfg := by
  unfold relieved Sender.relieve
  by_cases hc : ¬ (s.stopRequested ∨ s.stopping) ∧ s.backpressureActive = true ∧ s.counters.queueBytes ≤ cfg.bpLow
  · rw [if_pos hc]
    exact (if_pos hc).symm
  · rw [if_neg hc]
    exact (if_neg hc).symm

omit [CommRing N] in
theorem relieved_frame (cfg : Config) (s : State N) :
    (s.relieved cfg).currentSeq = s.currentSeq ∧ (s.relieved cfg).script = s.script ∧
    (s.relieved cfg).writing = s.writing := by
  unfold relieved
  split <;> exact ⟨rfl,rfl,rfl⟩

omit [CommRing N] in
theorem relieved_ready (hs : s.sender.Ready allow) : (s.relieved cfg).sender.Ready allow := by
  obtain ⟨hseq,hscript,-⟩ := s.relieved_frame cfg
  refine ⟨fun h0 => hs.started (hseq.symm.trans h0),?_⟩
  rw [show (s.relieved cfg).sender.script = s.sender.script from hscript]
  exact hs.faultless

/-- ON, and the callback. -/
theorem on_turned (hs : s.sender.Ready allow) (hbp : s.backpressureActive = false)
    (hhigh : cfg.bpHigh ≤ s.counters.queueBytes) :
    Reaches cfg allow h s h (State.giveWay cfg { s with backpressureActive := true }) ∧
    (State.giveWay cfg { s with backpressureActive := true }).writing = s.writing := by
  have hon : Reaches cfg allow h s h { s with backpressureActive := true } :=
    .single hs (.on h s.sender hbp hhigh) rfl rfl
  have hturn : Turned cfg allow h _ (State.giveWay cfg { s with backpressureActive := true }) :=
    giveWay_turned hon.ready
  exact ⟨hon.trans hturn.toReaches,hturn.writing⟩

/-- The report of the present level goes on from OFF. -/
theorem report_reaches (hs : s.sender.Ready allow)
    (hkick : ∀ t : State N, t.sender.Ready allow → t.writing = s.writing →
      Reaches cfg allow h t h (t.writeIfIdle cfg)) :
    Reaches cfg allow h (s.relieved cfg) h (s.reportBackpressure cfg s.counters.queueBytes) := by
  have hready : (s.relieved cfg).sender.Ready allow := relieved_ready hs
  unfold reportBackpressure
  split
  · rename_i hstop
    rw [relieved, if_neg (fun hc => hc.1 hstop)]
    exact .refl hs
  rename_i hrun
  unfold Transport.reportBackpressure
  split_ifs with hon hoff
  · rw [relieved, if_neg (fun hc => by simp [bpFields] at hon; simp [hon.1] at hc)]
    exact (on_turned hs hon.1 hon.2).1
  · have hflush : s.relieved cfg = (bpFields cfg).setBackpressureActive false
        ((bpFields cfg).setQueueBytes (add ((bpFields cfg).queueBytes s.flushPendingIntoTx.2)
          s.flushPendingIntoTx.1) s.flushPendingIntoTx.2) := by
      rw [relieved, if_pos ⟨hrun,hoff⟩]
      rfl
    dsimp only
    rw [show (bpFields cfg).flushPendingIntoTx s = s.flushPendingIntoTx from rfl, ← hflush]
    have hturn : Turned cfg allow h _ ((s.relieved cfg).giveWay cfg) := giveWay_turned hready
    have hwriting := hturn.writing.trans (s.relieved_frame cfg).2.2
    have hbp : ((s.relieved cfg).giveWay cfg).backpressureActive = false := by
      rw [hturn.backpressureActive, hflush]
      rfl
    change Reaches cfg allow h (s.relieved cfg) h (State.writeIfIdle cfg
      (if cfg.bpHigh ≤ ((s.relieved cfg).giveWay cfg).counters.queueBytes then
        State.giveWay cfg { (s.relieved cfg).giveWay cfg with backpressureActive := true }
      else (s.relieved cfg).giveWay cfg))
    split_ifs with hhigh
    · obtain ⟨hagain,hw⟩ := on_turned (h := h) hturn.ready hbp hhigh
      exact (hturn.toReaches.trans hagain).trans (hkick _ hagain.ready (hw.trans hwriting))
    · exact hturn.toReaches.trans (hkick _ hturn.ready hwriting)
  · rw [relieved, if_neg (fun hc => hoff hc.2)]
    exact .refl hs

/-- After its handler has queued an entry, the level is reported and the writer runs. -/
theorem reportThenWrite_reaches (hs : s.sender.Ready allow) :
    Reaches cfg allow .queued s .empty (s.reportThenWrite cfg) := by
  have hrelieve : Reaches cfg allow .queued s .queued (s.relieved cfg) := by
    obtain ⟨hseq,hscript,-⟩ := s.relieved_frame cfg
    refine .single hs ?_ hseq hscript
    rw [relieved_sender]
    exact .relieve s.sender
  have hidle : ∀ t : State N, t.sender.Ready allow → Reaches cfg allow .queued t .empty (t.writeIfIdle cfg) := by
    intro t ht
    unfold writeIfIdle
    split
    · rename_i hw
      exact .single ht (.written t.sender hw) rfl rfl
    · rename_i hw
      exact doWrite_reaches ht (by simpa [Hand.MayWrite] using hw) rfl
  have hqueue : ∀ t : State N, t.sender.Ready allow → Reaches cfg allow .empty t .queued t :=
    fun t ht => .single ht (.queue t.sender) rfl rfl
  have hreport := hrelieve.trans (report_reaches hs fun t ht _ => (hidle t ht).trans (hqueue _ (hidle t ht).ready))
  exact hreport.trans (hidle _ hreport.ready)

end Report

section Posted
variable {item : TrackedBuffer} {seq connection : ℕ} {rest : List Handler}

omit [CommRing N] in
theorem not_open_iff (s : State N) :
    ¬ s.sender.Open ↔ s.stopRequested ∨ s.state = .closed ∨ s.state = .error := by
  unfold Sender.Open
  change ¬ (s.stopRequested = false ∧ s.state ≠ .closed ∧ s.state ≠ .error) ↔ _
  cases s.stopRequested <;> cases s.state <;> simp

/-- A plain write whose reservation stands is never refused when its handler runs. -/
theorem onPosted_reaches (hs : s.sender.Ready allow) (hp : s.posted = .write item seq connection :: rest)
    (hfit : seq = s.currentSeq → s.counters.queueBytes + s.counters.pendingBytes + item.size ≤ cfg.bpLimit) :
    Reaches cfg allow .empty s .empty (State.onPosted cfg { s with posted := rest } item seq connection) := by
  unfold onPosted
  dsimp only
  split_ifs with hseq hconn
  · exact .single hs (.drop s.sender _ rest item seq connection hp (.inl ⟨rfl,hseq⟩)) rfl rfl
  · rw [not_not.mp hseq] at hp
    exact .single hs (.unreserve s.sender item rest connection hp (.inl hconn)) rfl rfl
  · obtain rfl := not_not.mp hseq
    obtain rfl := not_not.mp hconn
    unfold routeEnqueuedBuffer
    split
    · rename_i hclosed
      exact .single hs (.unreserve s.sender item rest _ hp (.inr ((not_open_iff s).mpr hclosed))) rfl rfl
    rename_i hopen
    have hopen : s.sender.Open := not_not.mp (fun hn => hopen ((not_open_iff s).mp hn))
    rw [decideEnqueue_eq, if_neg (by have := hfit rfl; dsimp only; omega)]
    by_cases hbp : s.backpressureActive
    · rw [if_pos hbp]
      exact .single hs (.park s.sender item rest hp hopen hbp) rfl rfl
    · rw [if_neg hbp]
      have hbp : s.backpressureActive = false := by simpa using hbp
      have hroute : Reaches cfg allow .empty s .queued ((State.setCounters { s with posted := rest }
          (commitReservedLimitBytes s.counters .queue item.size)).pushTx item) :=
        .single hs (.route s.sender item rest hp hopen hbp) rfl rfl
      exact hroute.trans (reportThenWrite_reaches hroute.ready)

theorem onTryPosted_reaches (hs : s.sender.Ready allow) (hp : s.posted = .tryWrite item seq connection :: rest)
    (hover : seq = s.currentSeq → connection = s.connectionSeq → s.sender.Open → s.pending = [] ∨ allow .overtake) :
    Reaches cfg allow .empty s .empty (State.onTryPosted cfg { s with posted := rest } item seq connection) := by
  unfold onTryPosted
  dsimp only
  split_ifs with hseq hconn
  · exact .single hs (.drop s.sender _ rest item seq connection hp (.inr ⟨rfl,.inl hseq⟩)) rfl rfl
  · exact .single hs (.drop s.sender _ rest item seq connection hp (.inr ⟨rfl,.inr hconn⟩)) rfl rfl
  · obtain rfl := not_not.mp hseq
    obtain rfl := not_not.mp hconn
    unfold routeTryBuffer
    split
    · rename_i hclosed
      exact .single hs (.unreserveTry s.sender item rest hp ((not_open_iff s).mpr hclosed)) rfl rfl
    · rename_i hopen
      have hopen : s.sender.Open := not_not.mp (fun hn => hopen ((not_open_iff s).mp hn))
      have hroute : Reaches cfg allow .empty s .queued (State.pushTx { s with posted := rest } item) :=
        .single hs (.routeTry s.sender item rest hp hopen (hover rfl rfl hopen)) rfl rfl
      exact hroute.trans (reportThenWrite_reaches hroute.ready)

end Posted

section Completed
variable {seq connection : ℕ} {batch : WriteBatch} {outstanding : List Outstanding} {l r : List Flight}

omit [CommRing N] in
/-- Restarting the idle timer starts no write. -/
theorem noteTraffic_sender (s : State N) (seq n : ℕ) :
    ∃ o, (s.noteTraffic seq n).sender = { s.sender with outstanding := o } ∧ writes o = writes s.outstanding := by
  unfold noteTraffic
  split
  · unfold resetIdleTimer
    split
    · exact ⟨s.outstanding,rfl,rfl⟩
    · refine ⟨_,rfl,?_⟩
      rw [← s.writes_cancelWhere onIdleTimer]
      simp [writes, State.startOperation, Operation.flight?]
  · exact ⟨s.outstanding,rfl,rfl⟩

/-- The bytes of the finished write leave the queue, and the level is reported. -/
theorem releaseWritten_reaches {u : State N} {n : ℕ} (hs : s.sender.Ready allow)
    (hwriting : s.writing = true) (hw : writes s.outstanding = l ++ ⟨seq,s.connectionSeq,batch⟩ :: r)
    {o : List Outstanding} (ho : writes o = l ++ r)
    (hu : u.sender = { s.sender.settle batch n with outstanding := o, activeWrite := none }) :
    Reaches cfg allow .empty s .finishing (u.releaseWritten cfg batch) := by
  have hready : u.sender.Ready allow := by
    rw [hu]
    exact ⟨hs.started,hs.faultless⟩
  have hcounters : u.counters = s.counters := congrArg Sender.counters hu
  unfold releaseWritten
  set v := u.setCounters (releaseReservedWriteBytes u.counters batch.bytes) with hv
  have hvs : v.sender = { s.sender.settle batch n with
      outstanding := o, activeWrite := none
      counters := releaseReservedWriteBytes s.counters batch.bytes } := by
    have hsender : v.sender = { u.sender with counters := releaseReservedWriteBytes u.counters batch.bytes } := rfl
    rw [hsender, hu, hcounters]
  have hvready : v.sender.Ready allow := ⟨hready.started,hready.faultless⟩
  have hcomplete : Reaches cfg allow .empty s .finishing (v.relieved cfg) := by
    obtain ⟨hseq,hscript,-⟩ := v.relieved_frame cfg
    refine .single hs ?_ (hseq.trans (congrArg Sender.currentSeq hu)) (hscript.trans (congrArg Sender.script hu))
    rw [relieved_sender, hvs]
    exact .complete s.sender l r o seq batch n hw ho
  have hvw : v.writing = true := (congrArg Sender.writing hu).trans hwriting
  refine hcomplete.trans (report_reaches hvready fun t ht htw => ?_)
  unfold writeIfIdle
  rw [if_pos (htw.trans hvw)]
  exact .refl ht

theorem settleWrite_eq (s : State N) (seq connection : ℕ) (batch : WriteBatch) (ec : ErrorCode) (n : ℕ) :
    s.settleWrite seq connection batch ec n =
      if connection = s.connectionSeq ∧ ec ≠ .success ∧ ec ≠ .operationAborted ∧ seq = s.currentSeq then
        ({ s with ledger := s.ledger.completeBatch (batch.buffers.map (fun item => (item.request,item.size))) n } :
          State N).markDisconnected
      else { s with
        ledger := s.ledger.completeBatch (batch.buffers.map (fun item => (item.request,item.size))) n } := rfl

theorem writeSucceeded_reaches {u : State N} {n : ℕ} (hs : s.sender.Ready allow) (hwriting : s.writing = true)
    (hw : writes s.outstanding = l ++ ⟨s.currentSeq,s.connectionSeq,batch⟩ :: r)
    (ho : writes outstanding = l ++ r)
    (hu : u.sender = { s.sender.settle batch n with outstanding := outstanding, activeWrite := none }) :
    Reaches cfg allow .empty s .empty (u.writeSucceeded cfg s.currentSeq batch n) := by
  obtain ⟨o,hsender,hwrites⟩ := u.noteTraffic_sender s.currentSeq n
  have ho' : writes o = l ++ r := by
    rw [hwrites, ← ho]
    exact congrArg (fun a : Sender N => writes a.outstanding) hu
  have hrel : Reaches cfg allow .empty s .finishing ((u.noteTraffic s.currentSeq n).releaseWritten cfg batch) :=
    releaseWritten_reaches hs hwriting hw ho' (by rw [hsender, hu])
  unfold writeSucceeded
  dsimp only
  split
  · rename_i hclosed
    exact hrel.trans (.single hrel.ready (.idle .finishing _ trivial
      (.inr (.inr ((not_open_iff _).mpr hclosed)))) rfl rfl)
  · exact hrel.trans (doWrite_reaches hrel.ready trivial hrel.currentSeq.symm)

/-- A failed write ends its connection, and its batch goes with the queues. -/
theorem writeFailed_reaches {u : State N} {ec : ErrorCode} {n : ℕ} (hs : s.sender.Ready allow)
    (hw : writes s.outstanding = l ++ ⟨s.currentSeq,s.connectionSeq,batch⟩ :: r)
    (ho : writes outstanding = l ++ r)
    (hu : u.sender = { s.sender.settle batch n with outstanding := outstanding })
    (habrt : ec ≠ .operationAborted) :
    Reaches cfg allow .empty s .empty
      (State.writeFailed cfg { u.markDisconnected with activeWrite := none } s.currentSeq batch ec) := by
  have hfail : Move cfg allow (.empty,s.sender) (.empty,u.sender.lose) := by
    rw [hu]
    exact .fail s.sender l r outstanding s.currentSeq batch n hw ho
  have hdown := u.markDisconnected_connected
  have hmark := u.markDisconnected_sender
  generalize u.markDisconnected = w at hdown hmark ⊢
  have hcur : w.currentSeq = s.currentSeq := by
    refine (congrArg Sender.currentSeq hmark).trans (u.sender.disconnect_currentSeq.trans ?_)
    rw [hu]
    rfl
  have hclosed : ∀ v : State N, v.connected = false → v.currentSeq = s.currentSeq →
      v.discardConnectionWrites.sender = u.sender.lose →
      Reaches cfg allow .empty s .empty (v.handleClose cfg s.currentSeq ec) := by
    intro v hvdown hvcur hvsender
    have hlose : Reaches cfg allow .empty s .empty v.discardConnectionWrites := by
      refine .single hs (hvsender ▸ hfail) hvcur ?_
      refine (congrArg Sender.script hvsender).trans (u.sender.lose_script.trans ?_)
      rw [hu]
      rfl
    have hafter : Runs cfg allow v.markDisconnected.discardConnectionWrites (v.handleClose cfg s.currentSeq ec) :=
      runs_lifecycle.afterClose giveWay_runs trivial (by simp [habrt, hvcur])
    rw [markDisconnected_eq hvdown] at hafter
    exact hlose.trans (hafter hlose.ready)
  refine hclosed _ hdown hcur ?_
  unfold Sender.lose
  rw [← hmark]
  rfl

/-- The completion of a gather write. -/
theorem onWrite_reaches {ec : ErrorCode} {n : ℕ} (hs : s.sender.Ready allow)
    (hw : writes s.outstanding = l ++ ⟨seq,connection,batch⟩ :: r) (ho : writes outstanding = l ++ r)
    (hcurrent : connection = s.connectionSeq → s.writing = true ∧ seq = s.currentSeq)
    (habort : connection = s.connectionSeq → ec = .operationAborted → allow .abort) :
    Reaches cfg allow .empty s .empty
      (State.onWrite cfg { s with outstanding := outstanding } seq connection batch ec n) := by
  have hsettle := settleWrite_eq { s with outstanding := outstanding } seq connection batch ec n
  set u : State N := { s with outstanding := outstanding
                              ledger := s.ledger.completeBatch
                                (batch.buffers.map (fun item => (item.request,item.size))) n } with hu
  have husender : u.sender = { s.sender.settle batch n with outstanding := outstanding } := rfl
  unfold onWrite
  dsimp only
  by_cases hc : connection = s.connectionSeq
  swap
  · rw [hsettle.trans (if_neg fun hn => hc hn.1), if_pos (decide_eq_false hc)]
    exact .single hs (.completeStale s.sender l r _ seq connection batch n hw hc ho) rfl rfl
  obtain ⟨hwriting,rfl⟩ := hcurrent hc
  subst hc
  rw [if_neg (show ¬ (decide (s.connectionSeq = s.connectionSeq) = false) by simp)]
  by_cases habrt : ec = .operationAborted
  · rw [hsettle.trans (if_neg fun hn => hn.2.2.1 habrt), if_pos (.inl habrt)]
    have hrel : Reaches cfg allow .empty s .finishing
        (State.releaseWritten cfg { u with activeWrite := none } batch) :=
      releaseWritten_reaches hs hwriting hw ho rfl
    exact hrel.trans (.single hrel.ready (.giveUp _ (habort rfl habrt)) rfl rfl)
  by_cases hsucc : ec = .success
  · have hrun : ¬ (ec = .operationAborted ∨ s.currentSeq ≠ u.currentSeq) := by
      rintro (hn | hn)
      · exact habrt hn
      · exact hn rfl
    rw [hsettle.trans (if_neg fun hn => hn.2.1 hsucc), if_neg hrun, if_neg (not_not.mpr hsucc)]
    exact writeSucceeded_reaches hs hwriting hw ho rfl
  · rw [hsettle.trans (if_pos ⟨rfl,hsucc,habrt,rfl⟩)]
    have hcur : u.markDisconnected.currentSeq = s.currentSeq :=
      (congrArg Sender.currentSeq u.markDisconnected_sender).trans u.sender.disconnect_currentSeq
    have hrun : ¬ (ec = .operationAborted ∨ s.currentSeq ≠ u.markDisconnected.currentSeq) := by
      rintro (hn | hn)
      · exact habrt hn
      · exact hn hcur.symm
    rw [if_neg hrun, if_pos hsucc]
    exact writeFailed_reaches hs hw ho husender habrt

end Completed
section Steps

/-- No call of the step fails in the wrong place. -/
def StepOp.faultless : StepOp → Bool
  | .caller op => op.faultless
  | .start => true
  | .handler script => script.faultless
  | .complete _ _ script => script.faultless

/-- The handler of a nonblocking write finds parked requests before it. -/
def Overtakes (s : State N) : StepOp → Prop
  | .handler _ => (∃ item rest, s.posted = .tryWrite item s.currentSeq s.connectionSeq :: rest) ∧
      s.sender.Open ∧ s.pending ≠ []
  | _ => False

/-- An attempt of the run fails while a connection is up. -/
def Strands (s : State N) : StepOp → Prop
  | .complete index r _ =>
    (∃ o, s.outstanding[index]? = some o ∧
      (o.operation = .resolve s.currentSeq ∨ o.operation = .connect s.currentSeq)) ∧
    r.ec ≠ .success ∧ r.ec ≠ .operationAborted ∧ ¬ (s.stopRequested ∨ s.stopping) ∧ s.connected = true
  | _ => False

/-- The write of the present connection is aborted. -/
def Aborts (s : State N) : StepOp → Prop
  | .complete index r _ =>
    (∃ o seq batch, s.outstanding[index]? = some o ∧ o.operation = .write seq s.connectionSeq batch) ∧
    r.ec = .operationAborted
  | _ => False

def Shows (s : State N) (op : StepOp) : Flaw → Prop
  | .leak => op.faultless = false
  | .overtake => s.Overtakes op
  | .strand => s.Strands op
  | .abort => s.Aborts op

/-- Every flaw that a step of the run shows is allowed. -/
def Heeds (cfg : Config) (allow : Flaw → Prop) : State N → List StepOp → Prop
  | _, [] => True
  | s, op :: ops => (∀ flaw, s.Shows op flaw → allow flaw) ∧ Heeds cfg allow (s.step cfg op) ops

section Decidable

instance (P : Flaw → Prop) [DecidablePred P] : Decidable (∀ flaw, P flaw) :=
  decidable_of_iff (P .leak ∧ P .overtake ∧ P .strand ∧ P .abort)
    ⟨fun ⟨hl,ho,hs,ha⟩ flaw => (by cases flaw <;> assumption),fun h => ⟨h _,h _,h _,h _⟩⟩

instance (a : Sender N) : Decidable a.Open :=
  inferInstanceAs (Decidable (a.stopRequested = false ∧ a.state ≠ .closed ∧ a.state ≠ .error))

instance (posted : List Handler) (seq connection : ℕ) :
    Decidable (∃ item rest, posted = .tryWrite item seq connection :: rest) :=
  match posted with
  | .tryWrite item k c :: rest =>
    decidable_of_iff (k = seq ∧ c = connection) ⟨fun ⟨hk,hc⟩ => ⟨item,rest,by rw [hk, hc]⟩,
      fun ⟨_,_,h⟩ => ⟨(by injection h with h; injection h),(by injection h with h; injection h)⟩⟩
  | [] => isFalse (by simp)
  | .write _ _ _ :: _ => isFalse (by simp)
  | .kick _ _ :: _ => isFalse (by simp)
  | .start _ :: _ => isFalse (by simp)
  | .stopCleanup :: _ => isFalse (by simp)
  | .failReceive _ _ :: _ => isFalse (by simp)

instance (o : Option Outstanding) (p : Outstanding → Prop) [DecidablePred p] :
    Decidable (∃ x, o = some x ∧ p x) :=
  match o with
  | none => isFalse (by simp)
  | some x => decidable_of_iff (p x) (by simp)

theorem isWrite_iff (o : Option Outstanding) (connection : ℕ) :
    (∃ x, o = some x ∧ x.operation.flight?.map Flight.connection = some connection) ↔
    ∃ x seq batch, o = some x ∧ x.operation = .write seq connection batch := by
  constructor
  · rintro ⟨x,hx,hc⟩
    cases ho : x.operation with
    | write seq c batch =>
      rw [ho] at hc
      injection hc with hc
      exact ⟨x,seq,batch,hx,by rw [ho, ← hc]⟩
    | _ =>
      rw [ho] at hc
      cases hc
  · rintro ⟨x,seq,batch,hx,ho⟩
    exact ⟨x,hx,by rw [ho]; rfl⟩

instance (o : Option Outstanding) (connection : ℕ) :
    Decidable (∃ x seq batch, o = some x ∧ x.operation = .write seq connection batch) :=
  decidable_of_iff _ (isWrite_iff o connection)

instance (s : State N) (op : StepOp) : Decidable (s.Overtakes op) :=
  match op with
  | .handler _ => inferInstanceAs (Decidable ((∃ _, _) ∧ _))
  | .caller _ => isFalse id
  | .start => isFalse id
  | .complete _ _ _ => isFalse id

instance (s : State N) (op : StepOp) : Decidable (s.Strands op) :=
  match op with
  | .complete _ _ _ => inferInstanceAs (Decidable ((∃ _, _) ∧ _))
  | .caller _ => isFalse id
  | .start => isFalse id
  | .handler _ => isFalse id

instance (s : State N) (op : StepOp) : Decidable (s.Aborts op) :=
  match op with
  | .complete _ _ _ => inferInstanceAs (Decidable ((∃ _, _) ∧ _))
  | .caller _ => isFalse id
  | .start => isFalse id
  | .handler _ => isFalse id

instance (s : State N) (op : StepOp) (flaw : Flaw) : Decidable (s.Shows op flaw) :=
  match flaw with
  | .leak => inferInstanceAs (Decidable (_ = _))
  | .overtake => inferInstanceAs (Decidable (s.Overtakes op))
  | .strand => inferInstanceAs (Decidable (s.Strands op))
  | .abort => inferInstanceAs (Decidable (s.Aborts op))

instance decidableHeeds (cfg : Config) (allow : Flaw → Prop) [DecidablePred allow] :
    (s : State N) → (ops : List StepOp) → Decidable (Heeds cfg allow s ops)
  | _, [] => isTrue trivial
  | s, op :: ops =>
    have := decidableHeeds cfg allow (s.step cfg op) ops
    inferInstanceAs (Decidable (_ ∧ _))

end Decidable

/-- What the steps rely on. -/
structure Sound (cfg : Config) (s : State N) : Prop where
  idle : s.currentSeq = 0 → s.posted = [] ∧ s.outstanding = [] ∧ s.connected = false
  waits : ∀ {seq rest}, s.posted = .start seq :: rest → s.connected = false
  fits : ∀ {item connection rest}, s.posted = .write item s.currentSeq connection :: rest →
    s.counters.queueBytes + s.counters.pendingBytes + item.size ≤ cfg.bpLimit
  flight : ∀ {f : Flight}, f ∈ writes s.outstanding → f.connection = s.connectionSeq →
    s.writing = true ∧ f.seq = s.currentSeq

/-- An operation that completes is taken out of the list. -/
theorem writes_eraseIdx {ops : List Outstanding} {index : ℕ} {o : Outstanding} (ho : ops[index]? = some o) :
    ∃ l r, writes ops = l ++ (o.operation.flight?.toList ++ r) ∧ writes (ops.eraseIdx index) = l ++ r := by
  obtain ⟨hlt,heq⟩ := List.getElem?_eq_some_iff.mp ho
  refine ⟨writes (ops.take index),writes (ops.drop (index + 1)),?_,?_⟩
  · have hsplit : ops = ops.take index ++ o :: ops.drop (index + 1) := by
      rw [← heq, ← List.drop_eq_getElem_cons hlt, List.take_append_drop]
    conv_lhs => rw [hsplit]
    unfold writes
    rw [List.filterMap_append, List.filterMap_cons]
    cases o.operation.flight? <;> rfl
  · rw [List.eraseIdx_eq_take_drop_succ]
    unfold writes
    rw [List.filterMap_append]

theorem runHandler_reaches {handler : Handler} {rest : List Handler} (hs : s.sender.Ready allow)
    (hp : s.posted = handler :: rest) (hsound : s.Sound cfg)
    (hover : ∀ item, handler = .tryWrite item s.currentSeq s.connectionSeq → s.sender.Open →
      s.pending = [] ∨ allow .overtake) :
    Reaches cfg allow .empty s .empty (State.runHandler cfg { s with posted := rest } handler) := by
  have hpop : handler.item? = none → Reaches cfg allow .empty s .empty { s with posted := rest } :=
    fun hi => .single hs (.pop s.sender handler rest hp hi) rfl rfl
  cases handler with
  | write item seq connection =>
    exact onPosted_reaches hs hp fun hseq => hsound.fits (hseq ▸ hp)
  | tryWrite item seq connection =>
    refine onTryPosted_reaches hs hp fun hseq hconn hopen => ?_
    subst hseq hconn
    exact hover item rfl hopen
  | kick seq connection =>
    refine (hpop rfl).trans ?_
    have hready := (hpop rfl).ready
    change Reaches cfg allow .empty _ .empty (State.onKick cfg { s with posted := rest } seq connection)
    unfold onKick
    split_ifs with hne hw
    · exact .refl hready
    · exact .refl hready
    · obtain ⟨hseq,-⟩ := not_or.mp hne
      exact doWrite_reaches hready (by simpa [Hand.MayWrite] using hw) (not_not.mp hseq)
  | start seq =>
    exact (hpop rfl).trans (runs_lifecycle.startOn giveWay_runs _ trivial (.inr (hsound.waits hp)) (hpop rfl).ready)
  | stopCleanup =>
    exact (hpop rfl).trans (runs_lifecycle.toCleanup.stopCleanupWith
      (runs_lifecycle.notifyState giveWay_runs) _ (hpop rfl).ready)
  | failReceive connection run =>
    exact (hpop rfl).trans (runs_lifecycle.failReceiveOn giveWay_runs _ connection trivial (hpop rfl).ready)

theorem runCompletion_reaches {index : ℕ} {o : Outstanding} {r : Completion} {script : Script}
    (hs : s.sender.Ready allow) (ho : s.outstanding[index]? = some o) (hsound : s.Sound cfg)
    (hshow : ∀ flaw, s.Shows (.complete index r script) flaw → allow flaw) :
    Reaches cfg allow .empty s .empty
      (State.runCompletion cfg { s with outstanding := s.outstanding.eraseIdx index } r o.operation) := by
  obtain ⟨l,k,hw,hw'⟩ := writes_eraseIdx ho
  cases hop : o.operation.batch? with
  | none =>
    rw [flight?_eq_none hop] at hw
    have herase : Reaches cfg allow .empty s .empty { s with outstanding := s.outstanding.eraseIdx index } :=
      .single hs (.operate s.sender _ (hw'.trans hw.symm)) rfl rfl
    refine herase.trans (runs_lifecycle.runCompletion giveWay_runs _ r trivial hop (fun seq hseq => ?_) herase.ready)
    by_cases hstrand : allow .strand
    · exact .inl hstrand
    refine .inr (fun habrt hstop hfail => ?_)
    obtain ⟨hne,hcur⟩ := not_or.mp habrt
    rw [not_not.mp hcur] at hseq
    by_contra hconn
    exact hstrand (hshow .strand ⟨⟨o,ho,hseq⟩,hfail,hne,hstop,by simpa using hconn⟩)
  | some batch =>
    obtain ⟨seq,connection,hwrite⟩ : ∃ seq connection, o.operation = .write seq connection batch := by
      cases hoo : o.operation with
      | write seq connection b =>
        rw [hoo] at hop
        cases hop
        exact ⟨seq,connection,rfl⟩
      | _ =>
        rw [hoo] at hop
        cases hop
    rw [hwrite] at hw ⊢
    have hmem : (⟨seq,connection,batch⟩ : Flight) ∈ writes s.outstanding := by
      rw [hw]
      simp [Operation.flight?]
    refine onWrite_reaches hs hw hw' (fun hc => hsound.flight hmem hc) (fun hc habrt => ?_)
    subst hc
    exact hshow .abort ⟨⟨o,seq,batch,ho,hwrite⟩,habrt⟩

/-- Every step of a started client is a sequence of moves. -/
theorem step_reaches {op : StepOp} (hs : s.sender.Ready allow) (hsound : s.Sound cfg)
    (hshow : ∀ flaw, s.Shows op flaw → allow flaw) (hop : op ≠ .start) :
    Reaches cfg allow .empty s .empty (s.step cfg op) := by
  have hleak : allow .leak ∨ op.faultless = true := by
    by_cases hf : op.faultless = true
    · exact .inr hf
    · exact .inl (hshow .leak (by simpa [Shows] using hf))
  have hturn : ∀ script : Script, allow .leak ∨ script.faultless = true →
      Reaches cfg allow .empty s .empty { s with script := script } :=
    fun script hf => ⟨.single (.turn .empty s.sender script),rfl,hs.started,hf⟩
  cases op with
  | caller op => exact (callerStep_turned hs hleak).toReaches
  | start => exact absurd rfl hop
  | handler script =>
    unfold step
    dsimp only
    split
    · exact .refl hs
    · rename_i handler rest hp
      have hscript := hturn script hleak
      refine hscript.trans (runHandler_reaches hscript.ready hp ⟨hsound.idle,hsound.waits,hsound.fits,hsound.flight⟩
        (fun item hitem hopen => ?_))
      by_contra hover
      obtain ⟨hpending,hover⟩ := not_or.mp hover
      subst hitem
      exact hover (hshow .overtake ⟨⟨item,rest,hp⟩,hopen,hpending⟩)
  | complete index r script =>
    unfold step
    dsimp only
    split
    · exact .refl hs
    · rename_i o ho
      have hscript := hturn script hleak
      have hshow' : ∀ flaw, State.Shows { s with script := script } (.complete index r script) flaw → allow flaw :=
        fun flaw hf => hshow flaw (by cases flaw <;> exact hf)
      have hrun : Reaches cfg allow .empty { s with script := script } .empty _ :=
        runCompletion_reaches hscript.ready ho ⟨hsound.idle,hsound.waits,hsound.fits,hsound.flight⟩ hshow'
      exact (hscript.trans hrun).trans (runs_lifecycle.ioCompletion _ hrun.ready)

/-- The client was never started. -/
structure Dormant (a : Sender N) : Prop where
  currentSeq : a.currentSeq = 0
  posted : a.posted = []
  outstanding : a.outstanding = []
  connected : a.connected = false

omit [CommRing N] in
theorem Dormant.congr {a b : Sender N} (ha : Dormant a) (hseq : b.currentSeq = a.currentSeq)
    (hp : b.posted = a.posted) (ho : b.outstanding = a.outstanding) (hc : b.connected = a.connected) :
    Dormant b :=
  ⟨hseq.trans ha.currentSeq,hp.trans ha.posted,ho.trans ha.outstanding,hc.trans ha.connected⟩

theorem dormant_cleanup :
    Cleanup (fun s t : State N => Dormant s.sender → Calm cfg allow s t ∧ Dormant t.sender) where
  refl s hs := ⟨calm_lifecycle.refl s,hs⟩
  trans hst htu hs := ⟨(hst hs).1.trans (htu (hst hs).2).1,(htu (hst hs).2).2⟩
  set ht hs := ⟨calm_lifecycle.set ht,ht ▸ hs⟩
  cancelWhere s p hs := by
    refine ⟨calm_lifecycle.cancelWhere s p,hs.congr rfl rfl ?_ rfl⟩
    have ho : s.outstanding = [] := hs.outstanding
    simp [State.cancelWhere, sender, ho]
  enter {s t} next hc ht hs := by
    refine ⟨calm_lifecycle.enter next hc ht,?_⟩
    rw [ht]
    exact hs.congr rfl rfl rfl rfl
  lose {s t} ht hs := by
    refine ⟨calm_lifecycle.lose ht,?_⟩
    have hdown : s.sender.disconnect = s.sender := by
      rw [Sender.disconnect, hs.connected]
      rfl
    rw [ht, Sender.lose, hdown]
    exact hs.congr rfl rfl rfl rfl

/-- A client that was never started can only be stopped. -/
theorem callerStep_dormant {op : CallerOp} (hs : Dormant s.sender) :
    Calm cfg allow s (s.callerStep cfg op) ∧ Dormant (s.callerStep cfg op).sender := by
  have hrefl : Calm cfg allow s s ∧ Dormant s.sender := ⟨calm_lifecycle.refl s,hs⟩
  cases op with
  | write kind data expectedConnection faults =>
    exact write_respects (P := fun _ => False)
      (R := fun t u => Dormant t.sender → Calm cfg allow t u ∧ Dormant u.sender)
      dormant_cleanup.refl dormant_cleanup.trans (fun ha => ha.started hs.currentSeq) kind faults
      (fun _ _ _ hn => hn.elim) hs
  | tryWrite kind data faults =>
    exact tryWrite_respects (R := fun t u => Dormant t.sender → Calm cfg allow t u ∧ Dormant u.sender)
      dormant_cleanup.refl kind faults (fun ha => absurd hs.currentSeq ha.started) hs
  | stop =>
    change Calm cfg allow s s.stop ∧ Dormant s.stop.sender
    unfold stop
    split
    · exact hrefl
    dsimp only
    have hstop : Calm cfg allow s { ({ s with stopRequested := true, ledger := s.ledger.endAll .explicitStop } :
        State N).endWriteWait .cancelledWhileWaiting with stopping := true, stopSeq := s.currentSeq } :=
      .single (.stop .empty s.sender) rfl rfl
    have hclean : ∀ t : State N, Calm cfg allow s t → Dormant t.sender →
        Calm cfg allow s (t.stopCleanupWith id) ∧ Dormant (t.stopCleanupWith id).sender := by
      intro t hcalm ht
      obtain ⟨hcalm',hdormant⟩ := dormant_cleanup.stopCleanupWith dormant_cleanup.refl t ht
      exact ⟨hcalm.trans hcalm',hdormant⟩
    split_ifs with h0
    · exact hclean _ hstop (hs.congr rfl rfl rfl rfl)
    · exact absurd hs.currentSeq h0
  | resetStats =>
    refine ⟨.single (.relabel .empty s.sender s.ledger.reset fun hv => ?_) rfl rfl,hs.congr rfl rfl rfl rfl⟩
    exact ⟨hv.retires_reset.valid,le_rfl,fun _ => rfl⟩
  | failReceive =>
    have hc : s.connected = false := hs.connected
    have hnone : s.writeConnection = none := if_pos (.inr (by simp [hc]))
    change Calm cfg allow s s.failReceive ∧ Dormant s.failReceive.sender
    unfold failReceive
    rw [hnone]
    exact hrefl
  | cancelWriteWaits => exact ⟨calm_lifecycle.set rfl,hs.congr rfl rfl rfl rfl⟩
  | configure settings => exact ⟨calm_lifecycle.set rfl,hs.congr rfl rfl rfl rfl⟩

/-- A new run resets the sender. -/
theorem start_sender (s : State N) : s.start = s ∨
    s.state ≠ .connected ∧ s.start.sender = s.sender.restart := by
  unfold start
  by_cases hactive : s.state = .connecting ∨ s.state = .connected
  · rw [if_pos hactive]
    exact .inl rfl
  rw [if_neg hactive]
  refine .inr ⟨fun hs => hactive (.inr hs),?_⟩
  unfold resetStartState resetRun markDisconnected Sender.restart Sender.disconnect
  dsimp only
  by_cases hc : s.connected
  · rw [if_pos (show s.sender.connected = true from hc), if_pos hc]
    rfl
  · rw [if_neg (show ¬ s.sender.connected = true from hc), if_neg hc]
    rfl

end Steps
end State
end Wirestead.Transport.TcpClient
