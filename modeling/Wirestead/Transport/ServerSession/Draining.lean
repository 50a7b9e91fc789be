import Wirestead.Transport.ServerSession.Stream

/-! # A session does not stall

Between two handlers a write in `tx_` means that a write is under way, and pressure is on
for a reason that will go away. A session that is open with nothing on its strand and
nothing at its socket has therefore handed over whatever it accepted.
-/
namespace Wirestead.Transport.ServerSession
open Diagnostics Sizes TcpClient

theorem Config.bpLow_lt (cfg : Config) : cfg.bpLow < cfg.bpHigh := by
  have hge := cfg.threshold_ge
  unfold bpLow TcpServer.Config.bpHigh
  dsimp only
  split_ifs <;> omega

namespace Session
variable {N : Type*} {cfg : Config} {s t : Session N} {h k : Hand}

/-- Pressure will be looked at again when the queue drains, or when a write completes. -/
def Attended (cfg : Config) (s : Session N) : Prop :=
  s.backpressureActive = true → cfg.bpLow < s.counters.queueBytes ∨ s.writing = true

/-- Between two handlers. -/
structure Settled (cfg : Config) (s : Session N) : Prop where
  sending : s.tx ≠ [] → s.writing = true
  attended : s.Attended cfg

/-- The session is closing, or it is settled. -/
def Calm (cfg : Config) (s : Session N) : Prop := s.closing = true ∨ s.Settled cfg

/-- Unless it is closing the session has been started. -/
def Awake (s : Session N) : Prop := s.closing = false → s.alive = true

theorem Awake.closing (ha : s.Awake) (hclosed : s.isOpen = false) : s.closing = true := by
  by_contra hopen
  have hopen : s.closing = false := by simpa using hopen
  rw [isOpen_iff.mpr ⟨ha hopen,hopen⟩] at hclosed
  cases hclosed

theorem awake_of_isOpen (hopen : s.isOpen = true) : s.Awake := fun _ => (isOpen_iff.mp hopen).1

/-- The queues stay, and `queue_bytes_` only grows. -/
structure Spared (s t : Session N) : Prop where
  kept : Kept s t
  queueBytes : s.counters.queueBytes ≤ t.counters.queueBytes

theorem Spared.refl (s : Session N) : Spared s s := ⟨.refl s,le_rfl⟩

theorem Spared.trans {u : Session N} (h : Spared s t) (k : Spared t u) : Spared s u :=
  ⟨h.kept.trans k.kept,h.queueBytes.trans k.queueBytes⟩

theorem Spared.attended (hs : Spared s t) (ha : s.Attended cfg) : t.Attended cfg := by
  unfold Attended
  rw [hs.kept.active, hs.kept.writing]
  exact fun hactive => (ha hactive).imp_left (fun hlow => hlow.trans_le hs.queueBytes)

theorem Spared.calm (hs : Spared s t) (hc : s.Calm cfg) : t.Calm cfg := by
  refine hc.imp hs.kept.closing (fun hset => ⟨?_,hs.attended hset.attended⟩)
  rw [hs.kept.tx, hs.kept.writing]
  exact hset.sending

theorem Spared.awake (hs : Spared s t) (ha : s.Awake) : t.Awake := by
  intro ht
  refine hs.kept.alive (ha ?_)
  by_contra hc
  rw [hs.kept.closing (by simpa using hc)] at ht
  cases ht

theorem emit_spared (event : Event) : Spared s (s.emit event) :=
  ⟨⟨rfl,rfl,rfl,rfl,rfl,rfl,id,id,fun _ => rfl,List.prefix_rfl⟩,le_rfl⟩

theorem aside_spared (idleArmed : Bool) (handshakes reads : ℕ) :
    Spared s { s with idleArmed := idleArmed, handshakes := handshakes, reads := reads } :=
  ⟨⟨rfl,rfl,rfl,rfl,rfl,rfl,id,id,fun _ => rfl,List.prefix_rfl⟩,le_rfl⟩

theorem resetIdleTimer_spared (cfg : Config) : Spared s (s.resetIdleTimer cfg) := by
  obtain ⟨armed,heq⟩ := resetIdleTimer_eq cfg s
  rw [heq]
  exact aside_spared armed s.handshakes s.reads

theorem startRead_spared : Spared s s.startRead := by
  unfold startRead
  split_ifs
  · exact .refl s
  · exact aside_spared s.idleArmed s.handshakes (s.reads + 1)

variable [CommRing N]

theorem Grow.spared (g : Grow cfg s t) : Spared s t := by
  refine ⟨g.kept,?_⟩
  cases g with
  | accept data plain counters hopen hdata hroom =>
    rw [accept_eq]
    cases plain with
    | true =>
      obtain ⟨-,rfl⟩ := tryReserveLimitBytes_some hroom
      exact le_rfl
    | false =>
      obtain ⟨-,rfl⟩ := tryReserveWriteBytesLocked_some hroom
      exact Nat.le_add_right _ _
  | wake | reset | set | aside | post | complete => exact le_rfl
  | halt | endWait => rw [endWait_eq]

theorem Growth.spared (g : Growth cfg s t) : Spared s t := by
  induction g with
  | refl => exact .refl s
  | tail _ g ih => exact ih.trans g.spared

theorem turn_spared : Spared s (s.turn cfg) := turn_growth.spared

theorem invoke_spared (cfg : Config) (callback : Callback) (event : Event) : Spared s (s.invoke cfg callback event) := by
  unfold invoke
  split_ifs
  · exact (emit_spared event).trans turn_spared
  · exact .refl s

/-- A session that is closing stays so. -/
theorem Move.closing (m : Move cfg (s,h) (t,k)) (hc : s.closing = true) : t.closing = true := by
  cases m with
  | grow s t h g => exact g.kept.closing hc
  | take | emit | dropCallbacks | forget | forgetTried | refuse | park | enqueue | enqueueTried | activate | begin
  | handOver
  | ignore | confirm | release | rest | leave => exact hc
  | relieve =>
    rw [relieved_eq]
    exact hc
  | throwing | fail => rw [lost_eq]
  | shut => rw [shut_eq]

theorem Path.closing {p q : Session N × Hand} (m : Path cfg p q) (hc : p.1.closing = true) : q.1.closing = true :=
  Path.induct (I := fun p => p.1.closing = true) (fun _ _ hp m => m.closing hp) hc m

theorem Move.awake (m : Move cfg (s,h) (t,k)) (ha : s.Awake) : t.Awake := by
  cases m with
  | grow s t h g => exact g.spared.awake ha
  | take | emit | dropCallbacks | forget | forgetTried | refuse | park | enqueue | enqueueTried | activate | begin
  | handOver
  | ignore | confirm | release | rest | leave => exact ha
  | relieve =>
    rw [relieved_eq]
    exact ha
  | throwing | fail =>
    rw [lost_eq]
    exact fun ht => by cases ht
  | shut =>
    rw [shut_eq]
    exact fun ht => by cases ht

theorem Path.awake {p q : Session N × Hand} (m : Path cfg p q) (ha : p.1.Awake) : q.1.Awake :=
  Path.induct (I := fun p => p.1.Awake) (fun _ _ hp m => m.awake hp) ha m

/-- `do_close` leaves a session that is closing. -/
theorem doClose_closing (hc : s.cleanupDone = true → s.closing = true) : (s.doClose cfg).closing = true := by
  have hpath : Path cfg (s,.empty) (s.doClose cfg,.empty) := doClose_path
  cases hclean : s.cleanupDone with
  | true => exact hpath.closing (hc hclean)
  | false =>
    rw [doClose_eq, hclean]
    have htold : (s.told cfg).closing = true := by
      have hshut : (s.shut cfg).closing = true := by rw [shut_eq]
      unfold told
      split_ifs
      · exact invoke_kept.closing hshut
      · exact hshut
    dsimp only
    rw [if_neg (by simp)]
    split_ifs
    · exact turn_spared.kept.closing htold
    · exact htold

/-- After `report_backpressure` pressure is on only above the low mark; the hook has run, if
no write was under way. -/
theorem report_outcome (cfg : Config) (ha : s.Awake) (kick : Session N → Session N) :
    ∃ u : Session N, Path cfg (s,h) (u,h) ∧ u.Awake ∧ u.writing = s.writing ∧
      (u.closing = true ∨ (u.backpressureActive = true → cfg.bpLow < u.counters.queueBytes)) ∧
      (s.reportBackpressure cfg kick s.counters.queueBytes = u ∨
        s.writing = false ∧ s.reportBackpressure cfg kick s.counters.queueBytes = kick u) := by
  rw [reportBackpressure_eq]
  -- pressure comes on above the high mark, and its callback only adds to the queue
  have hactivate : ∀ (v : Session N), v.Awake → cfg.bpHigh ≤ v.counters.queueBytes → ∃ u : Session N,
      invoke cfg { v with backpressureActive := true } .backpressure (.backpressure v.counters.queueBytes) = u ∧
      Path cfg (v,h) (u,h) ∧ u.Awake ∧ u.writing = v.writing ∧ cfg.bpLow < u.counters.queueBytes := by
    intro v hv hhigh
    have hspared : Spared { v with backpressureActive := true } _ :=
      invoke_spared cfg .backpressure (.backpressure v.counters.queueBytes)
    have hpath : Path cfg (v,h) ({ v with backpressureActive := true },h) := (Move.activate v h (.inl hhigh)).path
    exact ⟨_,rfl,hpath.trans pressure_path,hspared.awake hv,hspared.kept.writing,
      (cfg.bpLow_lt.trans_le hhigh).trans_le hspared.queueBytes⟩
  split_ifs with hclosed hon hoff
  · exact ⟨s,.refl,ha,rfl,.inl (ha.closing hclosed),.inl rfl⟩
  · obtain ⟨u,heq,hpath,hawake,hwriting,hbytes⟩ := hactivate s ha hon.2
    exact ⟨u,hpath,hawake,hwriting,.inr (fun _ => hbytes),.inl heq⟩
  · have hspared : Spared s.relieved _ := invoke_spared cfg .backpressure (.backpressure s.counters.queueBytes)
    have hpath : Path cfg (s,h) (s.relieved.invoke cfg .backpressure (.backpressure s.counters.queueBytes),h) :=
      (Move.relieve s h hoff.1).path.trans pressure_path
    have hawake := hspared.awake (show s.relieved.Awake from ha)
    have hwriting : _ = s.writing := hspared.kept.writing
    have hactive : _ = false := hspared.kept.active
    dsimp only
    generalize s.relieved.invoke cfg .backpressure (.backpressure s.counters.queueBytes) = off at *
    -- pressure may come on again during the callback
    obtain ⟨u,heq,hu,hawake,hsame,hlevel⟩ : ∃ u : Session N, (if cfg.bpHigh ≤ off.counters.queueBytes then
        invoke cfg { off with backpressureActive := true } .backpressure (.backpressure off.counters.queueBytes)
        else off) = u ∧ Path cfg (s,h) (u,h) ∧ u.Awake ∧ u.writing = s.writing ∧
        (u.backpressureActive = true → cfg.bpLow < u.counters.queueBytes) := by
      split_ifs with hagain
      · obtain ⟨u,heq,hu,hawake,hsame,hbytes⟩ := hactivate off hawake hagain
        exact ⟨u,heq,hpath.trans hu,hawake,hsame.trans hwriting,fun _ => hbytes⟩
      · exact ⟨off,rfl,hpath,hawake,hwriting,fun hon => by simp [hactive] at hon⟩
    rw [heq]
    refine ⟨u,hu,hawake,hsame,.inr hlevel,?_⟩
    split_ifs with hbusy
    · exact .inl rfl
    · exact .inr ⟨by simpa [hsame] using hbusy,rfl⟩
  · refine ⟨s,.refl,ha,rfl,.inr (fun hactive => ?_),.inl rfl⟩
    by_contra hle
    exact hoff ⟨hactive,not_lt.mp hle⟩

/-- Unless it closes the session finds what `tx_` holds, or a write is under way. -/
theorem Awake.doWrite_calm (ha : s.Awake) (hready : s.closing = true ∨ s.Attended cfg) : (s.doWrite cfg).Calm cfg := by
  have hturn : Spared s (s.turn cfg) := turn_spared
  have ha := hturn.awake ha
  have hready := hready.imp hturn.kept.closing hturn.attended
  rw [doWrite_eq]
  generalize s.turn cfg = s at *
  split_ifs with hidle
  · rcases hready with hclosing | hattended
    · exact .inl hclosing
    by_cases hclosed : s.isOpen = false
    · exact .inl (ha.closing hclosed)
    · have hsend := hidle.resolve_left hclosed
      exact .inr ⟨fun hne => hsend.resolve_left hne,hattended⟩
  · have hbusy : (s.begun.turn cfg).writing = true := turn_spared.kept.writing
    unfold handOver
    split_ifs
    · exact .inl (doClose_closing (fun _ => by rw [endWait_eq]))
    · exact .inr ⟨fun _ => hbusy,fun _ => .inr hbusy⟩

/-- `report_backpressure`, and a write if none is under way. -/
theorem Awake.drive_calm (ha : s.Awake) : ((s.report cfg s.counters.queueBytes).kick (doWrite cfg)).Calm cfg := by
  obtain ⟨u,hpath,hawake,-,hlevel,hcases⟩ := report_outcome (h := .empty) cfg ha (doWrite cfg)
  have hready : u.closing = true ∨ u.Attended cfg := hlevel.imp id (fun hl hactive => .inl (hl hactive))
  unfold kick report
  rcases hcases with heq | ⟨-,heq⟩
  · rw [heq]
    split_ifs with hbusy
    · exact .inr ⟨fun _ => hbusy,fun _ => .inr hbusy⟩
    · exact hawake.doWrite_calm hready
  · rw [heq]
    have hcalm := hawake.doWrite_calm hready
    split_ifs
    · exact hcalm
    · have hpath : Path cfg (u,.empty) (u.doWrite cfg,.empty) := doWrite_path
      exact (hpath.awake hawake).doWrite_calm (hcalm.imp id Settled.attended)

/-- A plain write is parked under pressure and written otherwise. -/
theorem onEnqueue_calm {item : TrackedBuffer} (hr : s.Running (.plain item)) (hb : s.Bounded cfg (.plain item))
    (hc : s.Calm cfg) : (s.onEnqueue cfg item).Calm cfg := by
  unfold onEnqueue
  split_ifs with hclosed
  · exact .inl (hr.closing (by simp) hclosed)
  have hawake : s.Awake := awake_of_isOpen (by simpa using hclosed)
  have hturn : Spared s (s.turn cfg) := turn_spared
  have hpath : Path cfg (s,.plain item) (s.turn cfg,_) := turn_growth.path
  have hb : (s.turn cfg).Bounded cfg (.plain item) :=
    Path.induct (I := fun p => p.1.Bounded cfg p.2) (fun _ _ hp m => hp.move m) hb hpath
  have hawake := hturn.awake hawake
  have hc := hturn.calm hc
  have hfits := hb.not_refused
  generalize s.turn cfg = s at *
  have hagain : Spared s (s.turn cfg) := turn_spared
  unfold routeEnqueuedBuffer
  rw [decideEnqueue_eq] at hfits ⊢
  split_ifs at hfits ⊢ with hfull hactive
  · exact absurd rfl hfits
  · refine (hagain.calm hc).imp id (fun hset => ⟨hset.sending,?_⟩)
    exact hset.attended
  · exact Awake.drive_calm (hagain.awake hawake)

theorem onTryEnqueue_calm {item : TrackedBuffer} (hr : s.Running (.tried item)) :
    (s.onTryEnqueue cfg item).Calm cfg := by
  unfold onTryEnqueue
  split_ifs with hclosed
  · exact .inl (hr.closing (by simp) hclosed)
  · have hawake : s.Awake := awake_of_isOpen (by simpa using hclosed)
    exact Awake.drive_calm (s := { s with tx := s.tx ++ [item] }) hawake

/-- The next write starts, whatever pressure the completed one has released. -/
theorem afterWrite_calm (ha : s.Awake) (bytesToWrite : ℕ) (hbusy : s.writing = true) :
    (s.afterWrite cfg bytesToWrite).Calm cfg := by
  obtain ⟨u,-,hawake,-,hlevel,hcases⟩ := report_outcome (h := .empty) cfg
    (s := { s with counters := releaseReservedWriteBytes s.counters bytesToWrite }) ha (doWrite cfg)
  have heq := hcases.resolve_right (fun hidle => by simp [hbusy] at hidle)
  unfold afterWrite report
  dsimp only at heq ⊢
  rw [heq]
  have hready : u.closing = true ∨ Attended cfg { u with writing := false } :=
    hlevel.imp id (fun hl hactive => .inl (hl hactive))
  cases hkind : cfg.kind with
  | tcp =>
    dsimp only
    split_ifs with hclosed
    · exact .inl (Awake.closing (s := { u with writing := false }) hawake hclosed)
    · have htimer : Spared { u with writing := false } _ := resetIdleTimer_spared cfg
      exact (htimer.awake hawake).doWrite_calm (hready.imp htimer.kept.closing htimer.attended)
  | uds => exact Awake.doWrite_calm (s := { u with writing := false }) hawake hready

theorem onWritten_calm {n : ℕ} (hr : s.Running (.sent n)) (hp : s.Phase (.sent n)) (failed : Bool) (m : ℕ) :
    (s.onWritten cfg n failed m).Calm cfg := by
  unfold onWritten
  dsimp only
  split_ifs with hclosed
  · exact .inl (hr.closing (by simp) hclosed)
  · exact .inl (doClose_closing (fun _ => by rw [endWait_eq]))
  · have hopen : s.isOpen = true := by simpa using hclosed
    have hturn : Spared (s.settled (min m n)) ((s.settled (min m n)).turn cfg) := turn_spared
    refine afterWrite_calm (hturn.awake (awake_of_isOpen hopen)) n ?_
    exact hturn.kept.writing.trans (hp (isOpen_iff.mp hopen).2).1

theorem failReceive_calm (hr : s.Running .empty) (hc : s.Calm cfg) : (s.failReceive cfg).Calm cfg := by
  unfold failReceive
  split_ifs
  · exact .inl (doClose_closing hr.cleaned)
  · exact hc

theorem invokeBytes_calm (hr : s.Running .empty) (data : List UInt8) (hc : s.Calm cfg) :
    (s.invokeBytes cfg data).Calm cfg := by
  unfold invokeBytes
  split_ifs with hset
  · have htold : Spared s ((s.emit (.bytes data)).turn cfg) := (emit_spared _).trans turn_spared
    have hpath : Path cfg (s,.empty) ((s.emit (.bytes data)).turn cfg,.empty) :=
      (Move.emit s .empty (.bytes data) hset).path.trans turn_growth.path
    exact failReceive_calm (hr.path hpath) (htold.calm hc)
  · exact hc

theorem onStart_calm (hr : s.Running .empty) (hc : s.Calm cfg) : (s.onStart cfg).Calm cfg := by
  have htold : ∀ t : Session N, Spared s t → t.Running .empty → t.isOpen = true →
      (((t.emit .connected).turn cfg).failReceive cfg).Calm cfg := by
    intro t ht hrt hopen
    have hpath : Path cfg (t,.empty) ((t.emit .connected).turn cfg,.empty) :=
      (Move.emit t .empty .connected hopen).path.trans turn_growth.path
    have hspared : Spared s ((t.emit .connected).turn cfg) := ht.trans ((emit_spared .connected).trans turn_spared)
    exact failReceive_calm (hrt.path hpath) (hspared.calm hc)
  unfold onStart
  split_ifs with hclosed
  · exact hc
  have hopen : s.isOpen = true := by simpa using hclosed
  cases hkind : cfg.kind with
  | tcp =>
    obtain ⟨armed,htimer⟩ := resetIdleTimer_eq cfg s
    dsimp only
    rw [htimer]
    have hpath : Path cfg (s,.empty) ({ s with idleArmed := armed, handshakes := s.handshakes + 1 },.empty) :=
      aside_path armed (s.handshakes + 1) s.reads
    exact htold _ (aside_spared armed (s.handshakes + 1) s.reads) (hr.path hpath) hopen
  | uds =>
    have hcalm := htold s (.refl s) hr hopen
    dsimp only
    split_ifs
    · exact hcalm
    · exact ((resetIdleTimer_spared cfg).trans startRead_spared).calm hcalm

theorem onHandshaken_calm (hr : s.Running .empty) (failed : Bool) (hc : s.Calm cfg) :
    (s.onHandshaken cfg failed).Calm cfg := by
  unfold onHandshaken
  split_ifs
  · exact hc
  · exact .inl (doClose_closing hr.cleaned)
  · exact ((resetIdleTimer_spared cfg).trans startRead_spared).calm hc

theorem onReadDone_calm (hr : s.Running .empty) (failed : Bool) (data : List UInt8) (hc : s.Calm cfg) :
    (s.onReadDone cfg failed data).Calm cfg := by
  unfold onReadDone
  split_ifs
  · exact hc
  · exact .inl (doClose_closing hr.cleaned)
  · cases hkind : cfg.kind with
    | tcp =>
      have htimer : Path cfg (s,.empty) (s.resetIdleTimer cfg,.empty) := resetIdleTimer_path
      have hcalm := (resetIdleTimer_spared cfg).calm hc
      exact startRead_spared.calm (invokeBytes_calm (hr.path htimer) data hcalm)
    | uds =>
      have hcalm := invokeBytes_calm hr data hc
      dsimp only
      split_ifs
      · exact hcalm
      · exact ((resetIdleTimer_spared cfg).trans startRead_spared).calm hcalm

theorem onIdle_calm (hr : s.Running .empty) (hc : s.Calm cfg) : (s.onIdle cfg).Calm cfg := by
  unfold onIdle
  split_ifs
  · exact hc
  · exact hc
  · exact .inl (doClose_closing hr.cleaned)

theorem onStop_calm (hr : s.Running .empty) : (s.onStop cfg).Calm cfg := by
  have hclosed : (doClose cfg { s with callbacks := fun _ => false, idleArmed := false }).closing = true :=
    doClose_closing hr.cleaned
  have hspared : Spared _ (s.onStop cfg) := (emit_spared .stopped).trans turn_spared
  exact .inl (hspared.kept.closing hclosed)

theorem runPost_calm (post : Post) (hm : s.Metered cfg post.hand) (hc : s.Calm cfg) : (s.runPost cfg post).Calm cfg := by
  cases post with
  | start => exact onStart_calm hm.running hc
  | handshaken failed => exact onHandshaken_calm hm.running failed hc
  | enqueue item => exact onEnqueue_calm hm.running hm.bounded hc
  | tryEnqueue item => exact onTryEnqueue_calm hm.running
  | written n failed m => exact onWritten_calm hm.running hm.phase failed m
  | readDone failed data => exact onReadDone_calm hm.running failed data hc
  | idle => exact onIdle_calm hm.running hc
  | setCallback callback given =>
    have hgrowth : Growth cfg s (s.onSetCallback cfg callback given) := onSetCallback_growth callback given
    exact hgrowth.spared.calm hc
  | cancel => exact (aside_spared false s.handshakes s.reads).calm hc
  | stop => exact onStop_calm hm.running

theorem Metered.path {p q : Session N × Hand} (hm : p.1.Metered cfg p.2) (m : Path cfg p q) : q.1.Metered cfg q.2 :=
  Path.induct (I := fun p => p.1.Metered cfg p.2) Metered.move hm m

theorem step_calm (hm : s.Metered cfg .empty) (hc : s.Calm cfg) (op : StepOp) : (s.step cfg op).Calm cfg := by
  cases op with
  | call op =>
    have hgrowth : Growth cfg s (s.call cfg op) := call_growth op
    exact hgrowth.spared.calm hc
  | handler script =>
    cases hqueue : s.queue with
    | nil =>
      simp only [step, hqueue]
      exact hc
    | cons post rest =>
      simp only [step, hqueue]
      have htake : Path cfg (s,.empty) ({ s with queue := rest, script := script },post.hand) :=
        (Move.take s post rest hqueue).path.trans (Grow.aside _ s.idleArmed s.handshakes s.reads script).growth.path
      exact runPost_calm post (hm.path htake) (hc.imp id (fun hset => ⟨hset.sending,hset.attended⟩))

theorem run_calm_from (hm : s.Metered cfg .empty) (hc : s.Calm cfg) (ops : List StepOp) : (s.run cfg ops).Calm cfg := by
  induction ops generalizing s with
  | nil => exact hc
  | cons op ops ih => exact ih (hm.path (step_path hm.running hm.phase op)) (step_calm hm hc op)

theorem run_calm (cfg : Config) (ops : List StepOp) : ((new : Session N).run cfg ops).Calm cfg :=
  run_calm_from (new_metered cfg) (.inr ⟨fun hne => absurd rfl hne,fun hactive => by cases hactive⟩) ops

/-- A session that is open, with no write on its strand and none at its socket, has nothing
left in its queues and no pressure, and it has handed over every write it has accepted:
the plain ones in their order, and the nonblocking ones in theirs. -/
theorem run_idle_delivered (cfg : Config) (ops : List StepOp) :
    let s : Session N := new.run cfg ops
    s.closing = false → posted s.queue = [] → s.outstanding = [] →
      s.tx = [] ∧ s.pending = [] ∧ s.backpressureActive = false ∧ s.counters = .zero ∧
      ∀ plain, (handovers s.events).filter (fun item => (plain,item) ∈ requests s.events) = accepted plain s.events := by
  intro s hopen hposted hidle
  have hsound : s.Sound cfg .empty := run_sound cfg ops
  obtain ⟨kind,hs⟩ := hsound.streamed
  have hset : s.Settled cfg := (run_calm cfg ops).resolve_left (by simp [s, hopen])
  rcases hsound.metered.phase hopen with ⟨hwriting,-,hbatch⟩ | ⟨-,hone⟩
  · obtain ⟨hqueueBytes,hpendingBytes⟩ := hsound.metered.counted hopen
    have hinflight := hsound.metered.bounded.inflight
    have hplains : plains s.queue = [] := List.eq_nil_iff_forall_not_mem.mpr (fun item hi => by
      simpa [hposted] using mem_posted (.inl hi))
    have htries : tries s.queue = [] := List.eq_nil_iff_forall_not_mem.mpr (fun item hi => by
      simpa [hposted] using mem_posted (.inr hi))
    have htx : s.tx = [] := by
      by_contra hne
      rw [hset.sending hne] at hwriting
      cases hwriting
    have hzero : s.counters.queueBytes = 0 := by
      rw [hqueueBytes, held, htx, hbatch, htries]
      rfl
    have hactive : s.backpressureActive = false := by
      by_contra hon
      rcases hset.attended (by simpa using hon) with hlow | hbusy
      · omega
      · rw [hwriting] at hbusy
        cases hbusy
    have hpending : s.pending = [] := by
      by_contra hne
      rw [hs.pressure hne] at hactive
      cases hactive
    refine ⟨htx,hpending,hactive,?_,fun plain => ?_⟩
    · rw [hpending] at hpendingBytes
      rw [hplains] at hinflight
      cases hc : s.counters
      simp_all [Counters.zero, Hand.reserved]
    · rw [hs.filter_handed, ← hs.order hopen]
      simp [line, htx, hpending, hposted, Hand.front, Hand.back]
  · rw [hidle] at hone
    cases hone

def sampleConfig : Config := ⟨⟨1024,by decide,by decide⟩,.tcp,0⟩

/-- Two writes, the second one while the first is at the socket. -/
def sampleOps : List StepOp :=
  [.call .start,.handler ⟨[],false,false,false⟩,
    .call (.write [1,2] .copy),.handler ⟨[],false,false,false⟩,
    .call (.write [3] .tryMove),.handler ⟨[],false,false,false⟩,
    .call (.writeDone false 2),.handler ⟨[],false,false,false⟩,
    .call (.writeDone false 1),.handler ⟨[],false,false,false⟩]

theorem run_idle_delivered_sample :
    let s : Session ℤ := new.run sampleConfig sampleOps
    s.tx = [] ∧ s.pending = [] ∧ s.backpressureActive = false ∧ s.counters = .zero ∧
    ∀ plain, (handovers s.events).filter (fun item => (plain,item) ∈ requests s.events) = accepted plain s.events :=
  run_idle_delivered sampleConfig sampleOps (by decide +kernel) (by decide +kernel) (by decide +kernel)

end Session
end Wirestead.Transport.ServerSession
