import Wirestead.Transport.ServerSession.Moves

/-! # The handlers of a session are paths of moves

At most one write is under way while the session is open; with it, the hooks of
`report_backpressure` start a write only where one may start.
-/
namespace Wirestead.Transport.ServerSession
open Diagnostics Sizes TcpClient

def Post.item? : Post → Option TrackedBuffer
  | .enqueue item => some item
  | .tryEnqueue item => some item
  | _ => none

def Post.written? : Post → Option ℕ
  | .written bytesToWrite _ _ => some bytesToWrite
  | _ => none

/-- The writes that wait on the strand. -/
def posted (queue : List Post) : List TrackedBuffer := queue.filterMap Post.item?

/-- The writes that have completed and wait on the strand. -/
def completions (queue : List Post) : List ℕ := queue.filterMap Post.written?

@[simp] theorem posted_append (queue more : List Post) : posted (queue ++ more) = posted queue ++ posted more :=
  List.filterMap_append

@[simp] theorem completions_append (queue more : List Post) :
    completions (queue ++ more) = completions queue ++ completions more := List.filterMap_append

/-- What a handler has taken from the strand. -/
def Hand.back : Hand → List TrackedBuffer
  | .plain item => [item]
  | .tried item => [item]
  | _ => []

def Hand.completed : Hand → List ℕ
  | .sent bytesToWrite => [bytesToWrite]
  | _ => []

theorem posted_cons (post : Post) (rest : List Post) : posted (post :: rest) = post.hand.back ++ posted rest := by
  cases post <;> rfl

theorem completions_cons (post : Post) (rest : List Post) :
    completions (post :: rest) = post.hand.completed ++ completions rest := by
  cases post <;> rfl

@[simp] theorem posted_singleton (post : Post) : posted [post] = post.hand.back := by
  rw [posted_cons]
  exact List.append_nil _

@[simp] theorem completions_singleton (post : Post) : completions [post] = post.hand.completed := by
  rw [completions_cons]
  exact List.append_nil _

namespace Session
variable {N : Type*} {cfg : Config} {s t : Session N} {h : Hand}

/-- The writes at the socket, and those whose completion has not been handled. -/
def outstanding (s : Session N) : List ℕ := s.writeOp.toList ++ completions s.queue

/-- What holds of a session that nobody has started. -/
structure Fresh (s : Session N) (h : Hand) : Prop where
  hand : h = .empty
  queue : posted s.queue = []
  outstanding : s.outstanding = []
  tx : s.tx = []
  pending : s.pending = []

structure Running (s : Session N) (h : Hand) : Prop where
  cleaned : s.cleanupDone = true → s.closing = true
  waits : s.closing = true → s.waitEndedBy.isSome = true
  fresh : s.closing = false → s.alive = false → s.Fresh h

theorem isOpen_iff : s.isOpen = true ↔ s.alive = true ∧ s.closing = false := by
  unfold isOpen
  cases s.alive <;> cases s.closing <;> simp

/-- A handler that has taken something up finds the session closed only when it is closing. -/
theorem Running.closing (hr : s.Running h) (hhand : h ≠ .empty) (hclosed : s.isOpen = false) : s.closing = true := by
  by_contra hopen
  have hopen : s.closing = false := by simpa using hopen
  have halive : s.alive = false := by
    by_contra halive
    have hisOpen : s.isOpen = true := isOpen_iff.mpr ⟨by simpa using halive,hopen⟩
    rw [hclosed] at hisOpen
    cases hisOpen
  exact hhand (hr.fresh hopen halive).hand

theorem Running.clean (hr : s.Running h) (hopen : s.isOpen = true) : s.cleanupDone = false := by
  by_contra hdone
  have hclosing := hr.cleaned (by simpa using hdone)
  rw [(isOpen_iff.mp hopen).2] at hclosing
  cases hclosing

/-- What a handler has taken up tells what is under way. -/
def Phase (s : Session N) : Hand → Prop
  | .batch buffers => s.currentWriteBatch = buffers ∧ s.writing = true ∧ (s.closing = false → s.outstanding = [])
  | .sent bytesToWrite => s.closing = false →
    s.writing = true ∧ s.outstanding = [] ∧ bytesToWrite = totalBytes s.currentWriteBatch
  | .confirmed _ => s.writing = true ∧ (s.closing = false → s.outstanding = [] ∧ s.currentWriteBatch = [])
  | .done => s.writing = true ∧ (s.closing = false → s.outstanding = [] ∧ s.currentWriteBatch = [])
  | _ => s.closing = false →
    s.writing = false ∧ s.outstanding = [] ∧ s.currentWriteBatch = [] ∨
    s.writing = true ∧ s.outstanding = [totalBytes s.currentWriteBatch]

variable [CommRing N]

/-- Completions move from the socket to the strand. -/
theorem Grow.outstanding (g : Grow cfg s t) : t.outstanding.Perm s.outstanding := by
  unfold Session.outstanding
  cases g with
  | accept data plain => cases plain <;> simp [accept_eq, Post.hand, Hand.completed]
  | wake | reset | set | aside => exact .refl _
  | halt | endWait =>
    rw [endWait_eq]
  | post post hhand => simp [Session.post, hhand, Hand.completed]
  | complete k failed n hop =>
    simp only [Session.post, hop, Option.toList_some, Option.toList_none, completions_append, completions_singleton,
      Post.hand, Hand.completed, List.nil_append]
    exact List.perm_append_comm

theorem Phase.grow (hp : s.Phase h) (g : Grow cfg s t) : t.Phase h := by
  have hkept := g.kept
  have hout := g.outstanding
  have hopen : t.closing = false → s.closing = false := by
    intro ht
    by_contra hs
    rw [hkept.closing (by simpa using hs)] at ht
    cases ht
  have hnil : s.outstanding = [] → t.outstanding = [] := fun hs => List.Perm.eq_nil (hs ▸ hout)
  have hone : ∀ k, s.outstanding = [k] → t.outstanding = [k] := fun k hs => List.perm_singleton.mp (hs ▸ hout)
  unfold Phase at *
  cases h with
  | batch =>
    rw [hkept.batch, hkept.writing]
    exact ⟨hp.1,hp.2.1,fun ht => hnil (hp.2.2 (hopen ht))⟩
  | sent =>
    intro ht
    rw [hkept.batch, hkept.writing]
    exact (hp (hopen ht)).imp_right (And.imp_left hnil)
  | confirmed | done =>
    rw [hkept.batch, hkept.writing]
    exact ⟨hp.1,fun ht => (hp.2 (hopen ht)).imp_left hnil⟩
  | empty | plain | tried | leaving =>
    intro ht
    dsimp only at hp ⊢
    rw [hkept.batch, hkept.writing]
    exact (hp (hopen ht)).imp (And.imp_right (And.imp_left hnil)) (And.imp_right (hone _))

/-- What a handler takes up decides what is under way. -/
theorem Phase.move (p q : Session N × Hand) (hp : p.1.Phase p.2) (m : Move cfg p q) : q.1.Phase q.2 := by
  cases m with
  | grow s t h g => exact hp.grow g
  | take s post rest hqueue =>
    have hout : s.outstanding = s.writeOp.toList ++ (post.hand.completed ++ completions rest) := by
      rw [outstanding, hqueue, completions_cons]
    cases post with
    | written k failed n =>
      intro ht
      simp only [Post.hand, Hand.completed] at hout
      rcases hp ht with ⟨-,hnone,-⟩ | ⟨hwriting,hone⟩
      · simp [hout] at hnone
      · rw [hout] at hone
        have hlength := congrArg List.length hone
        simp only [List.length_append, List.length_cons, List.length_nil] at hlength
        have hop : s.writeOp.toList = [] := List.eq_nil_of_length_eq_zero (by omega)
        have hrest : completions rest = [] := List.eq_nil_of_length_eq_zero (by omega)
        refine ⟨hwriting,?_,?_⟩
        · simp [outstanding, hop, hrest]
        · simpa [hop, hrest] using hone
    | start | handshaken | enqueue | tryEnqueue | readDone | idle | setCallback | cancel | stop =>
      intro ht
      have hsame : outstanding { s with queue := rest } = s.outstanding := hout.symm
      dsimp only
      rw [hsame]
      exact hp ht
  | emit s h | dropCallbacks s h | activate s h => cases h <;> exact hp
  | relieve s h =>
    rw [relieved_eq]
    cases h <;> exact hp
  | forget | forgetTried | refuse | park | enqueue | enqueueTried => exact hp
  | begin s hopen htx hwriting =>
    refine ⟨rfl,rfl,fun ht => ?_⟩
    rcases hp ht with ⟨-,hnone,-⟩ | ⟨hbusy,-⟩
    · exact hnone
    · rw [hwriting] at hbusy
      cases hbusy
  | handOver s buffers hbatch =>
    intro ht
    have hnone := hp.2.2 ht
    refine .inr ⟨hp.2.1,?_⟩
    unfold outstanding at hnone ⊢
    rw [(List.append_eq_nil_iff.mp hnone).2, hbatch]
    rfl
  | throwing | fail =>
    rw [lost_eq]
    exact fun ht => by cases ht
  | ignore s k hclosing =>
    intro ht
    rw [show s.closing = false from ht] at hclosing
    cases hclosing
  | confirm s k confirmed hopen => 
    have hsent := hp (isOpen_iff.mp hopen).2
    exact ⟨hsent.1,fun _ => ⟨hsent.2.1,rfl⟩⟩
  | release => exact hp
  | rest s => exact fun ht => .inl ⟨rfl,hp.2 ht⟩
  | shut s =>
    rw [shut_eq]
    exact fun ht => by cases ht
  | leave => exact hp

theorem Running.grow (hr : s.Running h) (g : Grow cfg s t) : t.Running h := by
  have hkept := g.kept
  have hout := g.outstanding
  have hfresh : t.closing = false → t.alive = false → s.Fresh h := by
    intro hc ha
    refine hr.fresh ?_ ?_
    · by_contra hs
      rw [hkept.closing (by simpa using hs)] at hc
      cases hc
    · by_contra hs
      rw [hkept.alive (by simpa using hs)] at ha
      cases ha
  constructor
  · rw [hkept.cleanupDone]
    exact fun hd => hkept.closing (hr.cleaned hd)
  · cases g with
    | accept | wake | reset | post | complete | set | aside => exact hr.waits
    | halt reason =>
      rw [endWait_eq]
      cases s.waitEndedBy <;> simp
    | endWait reason =>
      rw [endWait_eq]
      cases s.waitEndedBy <;> simp
  · intro hc ha
    have hf := hfresh hc ha
    refine ⟨hf.hand,?_,List.Perm.eq_nil (hf.outstanding ▸ hout),hkept.tx.trans hf.tx,hkept.pending.trans hf.pending⟩
    cases g with
    | accept data plain counters hopen =>
      have halive := (isOpen_iff.mp hopen).1
      rw [show s.alive = false from ha] at halive
      cases halive
    | wake | reset | set | aside => exact hf.queue
    | halt | endWait =>
      rw [endWait_eq]
      exact hf.queue
    | post post hhand => simp [Session.post, hf.queue, hhand, Hand.back]
    | complete => simp [Session.post, hf.queue, Post.hand, Hand.back]

theorem Running.move (p q : Session N × Hand) (hr : p.1.Running p.2) (m : Move cfg p q) : q.1.Running q.2 := by
  have hbusy : p.2 ≠ .empty → p.1.closing = false → p.1.alive = false → False :=
    fun hne hc ha => hne (hr.fresh hc ha).hand
  cases m with
  | grow s t h g => exact hr.grow g
  | take s post rest hqueue =>
    refine ⟨hr.cleaned,hr.waits,fun hc ha => ?_⟩
    obtain ⟨-,hq,ho,htx,hp⟩ := hr.fresh hc ha
    dsimp only at hq ho htx hp
    rw [hqueue, posted_cons, List.append_eq_nil_iff] at hq
    rw [outstanding, hqueue, completions_cons, List.append_eq_nil_iff, List.append_eq_nil_iff] at ho
    refine ⟨?_,hq.2,List.append_eq_nil_iff.mpr ⟨ho.1,ho.2.2⟩,htx,hp⟩
    cases post <;> simp_all [Post.hand, Hand.back, Hand.completed]
  | emit | dropCallbacks | activate =>
    exact ⟨hr.cleaned,hr.waits,fun hc ha => ⟨(hr.fresh hc ha).hand,(hr.fresh hc ha).queue,(hr.fresh hc ha).outstanding,
      (hr.fresh hc ha).tx,(hr.fresh hc ha).pending⟩⟩
  | relieve =>
    rw [relieved_eq]
    refine ⟨hr.cleaned,hr.waits,fun hc ha => ?_⟩
    have hf := hr.fresh hc ha
    exact ⟨hf.hand,hf.queue,hf.outstanding,List.append_eq_nil_iff.mpr ⟨hf.tx,hf.pending⟩,rfl⟩
  | forget | forgetTried | refuse | park | enqueue | enqueueTried | handOver | release | rest =>
    exact ⟨hr.cleaned,hr.waits,fun hc ha => (hbusy (by simp) hc ha).elim⟩
  | ignore | confirm =>
    exact ⟨hr.cleaned,hr.waits,fun hc ha => (hbusy (by simp) hc ha).elim⟩
  | begin s hopen =>
    refine ⟨hr.cleaned,hr.waits,fun hc ha => ?_⟩
    have halive := (isOpen_iff.mp hopen).1
    rw [show s.alive = false from ha] at halive
    cases halive
  | throwing s | fail s =>
    rw [lost_eq]
    refine ⟨fun _ => rfl,fun _ => ?_,fun hc => by cases hc⟩
    cases hw : s.waitEndedBy <;> simp [settled, hw]
  | shut s =>
    rw [shut_eq]
    refine ⟨fun _ => rfl,fun _ => ?_,fun hc => by cases hc⟩
    cases s.waitEndedBy <;> simp
  | leave => exact ⟨hr.cleaned,hr.waits,fun hc ha => (hbusy (by simp) hc ha).elim⟩

theorem Running.path {p q : Session N × Hand} (hr : p.1.Running p.2) (m : Path cfg p q) : q.1.Running q.2 :=
  Path.induct Running.move hr m

theorem Phase.path {p q : Session N × Hand} (hp : p.1.Phase p.2) (m : Path cfg p q) : q.1.Phase q.2 :=
  Path.induct Phase.move hp m

theorem invoke_path {callback : Callback} {event : Event} (hshows : s.callbacks callback = true → s.Shows h event) :
    Path cfg (s,h) (s.invoke cfg callback event,h) := by
  unfold invoke
  split_ifs with hset
  · exact (Move.emit s h event (hshows hset)).path.trans turn_growth.path
  · exact .refl

/-- A callback leaves the queues as they are. -/
theorem invoke_kept {callback : Callback} {event : Event} : Kept s (s.invoke cfg callback event) := by
  have hemit : Kept s (s.emit event) := ⟨rfl,rfl,rfl,rfl,rfl,rfl,id,id,fun _ => rfl,List.prefix_rfl⟩
  unfold invoke
  split_ifs
  · exact hemit.trans turn_growth.kept
  · exact .refl s

theorem pressure_path {n : ℕ} : Path cfg (s,h) (s.invoke cfg .backpressure (.backpressure n),h) := invoke_path id

theorem reportBackpressure_eq (s : Session N) (kick : Session N → Session N) (queuedBytes : ℕ) :
    s.reportBackpressure cfg kick queuedBytes =
    if s.isOpen = false then s
    else if s.backpressureActive = false ∧ cfg.bpHigh ≤ queuedBytes then
      invoke cfg { s with backpressureActive := true } .backpressure (.backpressure queuedBytes)
    else if s.backpressureActive = true ∧ queuedBytes ≤ cfg.bpLow then
      let off := s.relieved.invoke cfg .backpressure (.backpressure queuedBytes)
      let t := if cfg.bpHigh ≤ off.counters.queueBytes then
        invoke cfg { off with backpressureActive := true } .backpressure (.backpressure off.counters.queueBytes) else off
      if t.writing then t else kick t
    else s := rfl

theorem report_path {kick : Session N → Session N} {queuedBytes : ℕ}
    (hkick : ∀ t, Path cfg (s,h) (t,h) → t.writing = false → Path cfg (t,h) (kick t,h)) :
    Path cfg (s,h) (s.reportBackpressure cfg kick queuedBytes,h) := by
  rw [reportBackpressure_eq]
  split_ifs with hclosed hon hoff
  · exact .refl
  · exact (Move.activate s h (.inr (by simpa using hclosed))).path.trans pressure_path
  · dsimp only
    have hpath : Path cfg (s,h) (s.relieved.invoke cfg .backpressure (.backpressure queuedBytes),h) :=
      (Move.relieve s h hoff.1).path.trans pressure_path
    generalize s.relieved.invoke cfg .backpressure (.backpressure queuedBytes) = off at hpath
    split_ifs with hagain hwriting hwriting
    · exact hpath.trans ((Move.activate _ h (.inl hagain)).path.trans pressure_path)
    · have hon := hpath.trans
        ((Move.activate _ h (.inl hagain)).path.trans (pressure_path (n := off.counters.queueBytes)))
      exact hon.trans (hkick _ hon (by simpa using hwriting))
    · exact hpath
    · exact hpath.trans (hkick _ hpath (by simpa using hwriting))
  · exact .refl

theorem aside_path (idleArmed : Bool) (handshakes reads : ℕ) :
    Path cfg (s,h) ({ s with idleArmed := idleArmed, handshakes := handshakes, reads := reads },h) :=
  (aside_growth idleArmed handshakes reads).path

omit [CommRing N] in
theorem resetIdleTimer_eq (cfg : Config) (s : Session N) :
    ∃ armed, s.resetIdleTimer cfg = { s with idleArmed := armed } := by
  unfold resetIdleTimer
  split_ifs
  · exact ⟨s.idleArmed,rfl⟩
  · exact ⟨true,rfl⟩

theorem resetIdleTimer_path : Path cfg (s,h) (s.resetIdleTimer cfg,h) := by
  obtain ⟨armed,heq⟩ := resetIdleTimer_eq cfg s
  rw [heq]
  exact aside_path armed s.handshakes s.reads

theorem startRead_path : Path cfg (s,h) (s.startRead,h) := by
  unfold startRead
  split_ifs
  · exact .refl
  · exact aside_path s.idleArmed s.handshakes (s.reads + 1)

/-- `do_close` when a waiter has been told. -/
def told (cfg : Config) (s : Session N) : Session N :=
  if s.backpressureActive then (s.shut cfg).invoke cfg .backpressure (.backpressure 0) else s.shut cfg

theorem told_path (hclean : s.cleanupDone = false) :
    Path cfg (s,.empty) (s.told cfg,.leaving (s.callbacks .close)) := by
  have hshut : Path cfg (s,.empty) (s.shut cfg,.leaving (s.callbacks .close)) := (Move.shut s hclean).path
  unfold told
  split_ifs
  · exact hshut.trans pressure_path
  · exact hshut

theorem doClose_eq (s : Session N) : s.doClose cfg =
    if s.cleanupDone then s
    else
      let t : Session N := { s.told cfg with callbacks := fun _ => false, idleArmed := false }
      if s.callbacks .close then (t.emit .closed).turn cfg else t := by
  unfold doClose drain told
  rw [shut_eq]
  simp only [endWait_eq]

theorem doClose_path : Path cfg (s,.empty) (s.doClose cfg,.empty) := by
  rw [doClose_eq]
  cases hclean : s.cleanupDone with
  | true => exact .refl
  | false =>
    have htold : Path cfg _ _ := told_path hclean
    dsimp only
    generalize s.told cfg = t at htold
    have hcleared : Path cfg (s,.empty) ({ t with callbacks := fun _ => false, idleArmed := false },_) :=
      htold.trans ((Move.dropCallbacks t _).path.trans (aside_path false t.handshakes t.reads))
    have hleft := hcleared.trans (Move.leave _ _ (fun _ => rfl)).path
    cases hclose : s.callbacks .close with
    | true =>
      rw [hclose] at hleft
      exact hleft.trans turn_growth.path
    | false =>
      rw [hclose] at hleft
      simpa using hleft

/-- The handover of a batch; a throw closes the session. -/
theorem handOver_path {buffers : List TrackedBuffer} (hbatch : s.currentWriteBatch = buffers) :
    Path cfg (s,.batch buffers) (s.handOver cfg (totalBytes buffers),.empty) := by
  unfold handOver
  split_ifs
  · exact (Move.throwing s buffers).path.trans doClose_path
  · subst hbatch
    exact (Move.handOver s _ rfl).path

theorem doWrite_eq (s : Session N) : s.doWrite cfg =
    if (s.turn cfg).isOpen = false ∨ (s.turn cfg).tx = [] ∨ (s.turn cfg).writing then s.turn cfg
    else ((s.turn cfg).begun.turn cfg).handOver cfg (takeGatherBatch (s.turn cfg).tx).2.2 := rfl

theorem doWrite_path : Path cfg (s,.empty) (s.doWrite cfg,.empty) := by
  have hturn : Path cfg (s,.empty) (s.turn cfg,.empty) := turn_growth.path
  rw [doWrite_eq]
  refine hturn.trans ?_
  generalize s.turn cfg = s
  split_ifs with hidle
  · exact .refl
  · simp only [not_or, Bool.not_eq_false, Bool.not_eq_true] at hidle
    have hbegin : Path cfg _ _ := (Move.begin s hidle.1 hidle.2.1 hidle.2.2).path
    have hgrowth : Growth cfg s.begun (s.begun.turn cfg) := turn_growth
    rw [(takeGatherBatch_append s.tx).2]
    exact hbegin.trans (hgrowth.path.trans (handOver_path hgrowth.kept.batch))

theorem kick_path {f : Session N → Session N} (hf : Path cfg (s,h) (f s,h)) : Path cfg (s,h) (s.kick f,h) := by
  unfold kick
  split_ifs
  · exact .refl
  · exact hf

theorem report_empty_path (queuedBytes : ℕ) : Path cfg (s,.empty) (s.report cfg queuedBytes,.empty) :=
  report_path (fun _ _ _ => doWrite_path)

/-- `report_backpressure`, and a write if none is under way. -/
theorem drive_path : Path cfg (s,.empty) ((s.report cfg s.counters.queueBytes).kick (doWrite cfg),.empty) :=
  (report_empty_path _).trans (kick_path doWrite_path)

theorem routeEnqueuedBuffer_path (hclean : s.cleanupDone = false) (item : TrackedBuffer) :
    Path cfg (s,.plain item) (s.routeEnqueuedBuffer cfg item,.empty) := by
  have hgrowth : Growth cfg s (s.turn cfg) := turn_growth
  have hcleant := hgrowth.kept.cleanupDone.trans hclean
  unfold routeEnqueuedBuffer
  rw [decideEnqueue_eq]
  by_cases hfull : cfg.bpLimit < s.counters.queueBytes + s.counters.pendingBytes + item.size
  · rw [if_pos hfull]
    have hrefuse : Path cfg _ _ := (Move.refuse s item (by rw [decideEnqueue_eq, if_pos hfull])).path
    exact hrefuse.trans (report_empty_path _)
  · rw [if_neg hfull]
    cases hactive : s.backpressureActive with
    | true =>
      exact hgrowth.path.trans (Move.park _ item hcleant (hgrowth.kept.active.trans hactive)).path
    | false =>
      have henqueue : Path cfg _ _ := (Move.enqueue _ item hcleant (hgrowth.kept.active.trans hactive)).path
      exact hgrowth.path.trans (henqueue.trans drive_path)

theorem Running.onEnqueue_path {item : TrackedBuffer} (hr : s.Running (.plain item)) :
    Path cfg (s,.plain item) (s.onEnqueue cfg item,.empty) := by
  unfold onEnqueue
  split_ifs with hclosed
  · exact (Move.forget s item (hr.closing (by simp) hclosed)).path
  · have hgrowth : Growth cfg s (s.turn cfg) := turn_growth
    have hclean := hgrowth.kept.cleanupDone.trans (hr.clean (by simpa using hclosed))
    exact hgrowth.path.trans (routeEnqueuedBuffer_path hclean item)

theorem Running.onTryEnqueue_path {item : TrackedBuffer} (hr : s.Running (.tried item)) :
    Path cfg (s,.tried item) (s.onTryEnqueue cfg item,.empty) := by
  unfold onTryEnqueue
  split_ifs with hclosed
  · exact (Move.forgetTried s item (hr.closing (by simp) hclosed)).path
  · have henqueue : Path cfg _ _ := (Move.enqueueTried s item (hr.clean (by simpa using hclosed))).path
    exact henqueue.trans drive_path

/-- While a handler completes a write the hook of `report_backpressure` starts none. -/
theorem Phase.report_path (cfg : Config) (hp : s.Phase .done) (k : ℕ) : Path cfg (s,.done) (s.report cfg k,.done) := by
  apply Session.report_path
  intro t hpath hwriting
  have hbusy := (hp.path hpath).1
  rw [hwriting] at hbusy
  cases hbusy

theorem Phase.afterWrite_path {buffers : List TrackedBuffer} (cfg : Config) (hp : s.Phase (.confirmed buffers)) :
    Path cfg (s,.confirmed buffers) (s.afterWrite cfg (totalBytes buffers),.empty) := by
  have hrelease : Path cfg _ _ := (Move.release s buffers).path
  have hreport :=
    (hp.path hrelease).report_path cfg (releaseReservedWriteBytes s.counters (totalBytes buffers)).queueBytes
  have hrest : Path cfg _ _ := hrelease.trans (hreport.trans (Move.rest _).path)
  unfold afterWrite
  cases hkind : cfg.kind with
  | tcp =>
    dsimp only
    split_ifs
    · exact hrest
    · exact hrest.trans (resetIdleTimer_path.trans doWrite_path)
  | uds => exact hrest.trans doWrite_path

theorem onWritten_path {k : ℕ} (hr : s.Running (.sent k)) (hp : s.Phase (.sent k)) (failed : Bool) (n : ℕ) :
    Path cfg (s,.sent k) (s.onWritten cfg k failed n,.empty) := by
  unfold onWritten
  dsimp only
  split_ifs with hclosed
  · exact (Move.ignore s k (hr.closing (by simp) hclosed)).path
  · exact (Move.fail s k (min n k) (by simpa using hclosed)).path.trans doClose_path
  · have hopen : s.isOpen = true := by simpa using hclosed
    have hbytes := (hp (isOpen_iff.mp hopen).2).2.2
    have hconfirm : Path cfg _ _ := (Move.confirm s k (min n k) hopen hbytes).path
    have hturn : Path cfg (s,.sent k) ((s.settled (min n k)).turn cfg,_) := hconfirm.trans turn_growth.path
    have hafter := (hp.path hturn).afterWrite_path cfg
    rw [← hbytes] at hafter
    exact hturn.trans hafter

theorem failReceive_path : Path cfg (s,.empty) (s.failReceive cfg,.empty) := by
  unfold failReceive
  split_ifs
  · exact doClose_path
  · exact .refl

theorem invokeBytes_path (data : List UInt8) : Path cfg (s,.empty) (s.invokeBytes cfg data,.empty) := by
  unfold invokeBytes
  split_ifs with hset
  · exact (Move.emit s .empty (.bytes data) hset).path.trans (turn_growth.path.trans failReceive_path)
  · exact .refl

theorem onStart_path : Path cfg (s,.empty) (s.onStart cfg,.empty) := by
  unfold onStart
  split_ifs with hclosed
  · exact .refl
  have hopen : s.isOpen = true := by simpa using hclosed
  cases hkind : cfg.kind with
  | tcp =>
    have htimer : Path cfg (s,.empty) ({ s.resetIdleTimer cfg with handshakes := s.handshakes + 1 },.empty) := by
      exact resetIdleTimer_path.trans (aside_path _ _ _)
    have hstill : isOpen { s.resetIdleTimer cfg with handshakes := s.handshakes + 1 } = true := by
      obtain ⟨armed,heq⟩ := resetIdleTimer_eq cfg s
      rw [heq]
      exact hopen
    exact htimer.trans ((Move.emit _ .empty .connected hstill).path.trans (turn_growth.path.trans failReceive_path))
  | uds =>
    have htold : Path cfg (s,.empty) (((s.emit .connected).turn cfg).failReceive cfg,.empty) :=
      (Move.emit s .empty .connected hopen).path.trans (turn_growth.path.trans failReceive_path)
    dsimp only
    split_ifs
    · exact htold
    · exact htold.trans (resetIdleTimer_path.trans startRead_path)

theorem onHandshaken_path (failed : Bool) : Path cfg (s,.empty) (s.onHandshaken cfg failed,.empty) := by
  unfold onHandshaken
  split_ifs
  · exact .refl
  · exact doClose_path
  · exact resetIdleTimer_path.trans startRead_path

theorem onReadDone_path (failed : Bool) (data : List UInt8) :
    Path cfg (s,.empty) (s.onReadDone cfg failed data,.empty) := by
  unfold onReadDone
  split_ifs
  · exact .refl
  · exact doClose_path
  · cases hkind : cfg.kind with
    | tcp => exact resetIdleTimer_path.trans ((invokeBytes_path data).trans startRead_path)
    | uds =>
      have htold : Path cfg (s,.empty) (s.invokeBytes cfg data,.empty) := invokeBytes_path data
      dsimp only
      split_ifs
      · exact htold
      · exact htold.trans (resetIdleTimer_path.trans startRead_path)

theorem onIdle_path : Path cfg (s,.empty) (s.onIdle cfg,.empty) := by
  unfold onIdle
  split_ifs
  · exact .refl
  · exact .refl
  · exact doClose_path

theorem told_cleanupDone : (s.told cfg).cleanupDone = true := by
  have hshut : (s.shut cfg).cleanupDone = true := by rw [shut_eq]
  unfold told
  split_ifs
  · exact invoke_kept.cleanupDone.trans hshut
  · exact hshut

/-- Without a callback nobody hears of the close. -/
theorem doClose_quiet (hnone : ∀ c, s.callbacks c = false) :
    (s.doClose cfg).cleanupDone = true ∧ ∀ c, (s.doClose cfg).callbacks c = false := by
  rw [doClose_eq]
  cases hclean : s.cleanupDone with
  | true => exact ⟨hclean,hnone⟩
  | false =>
    rw [hnone .close]
    exact ⟨told_cleanupDone,fun _ => rfl⟩

theorem onStop_path : Path cfg (s,.empty) (s.onStop cfg,.empty) := by
  have hdrop : Path cfg (s,.empty) ({ s with callbacks := fun _ => false, idleArmed := false },.empty) :=
    (Move.dropCallbacks s .empty).path.trans (aside_path false s.handshakes s.reads)
  have hquiet : (doClose cfg { s with callbacks := fun _ => false, idleArmed := false }).cleanupDone = true ∧ _ :=
    doClose_quiet (fun _ => rfl)
  exact hdrop.trans (doClose_path.trans ((Move.emit _ .empty .stopped ⟨rfl,hquiet⟩).path.trans turn_growth.path))

theorem runPost_path (post : Post) (hr : s.Running post.hand) (hp : s.Phase post.hand) :
    Path cfg (s,post.hand) (s.runPost cfg post,.empty) := by
  cases post with
  | start => exact onStart_path
  | handshaken failed => exact onHandshaken_path failed
  | enqueue item => exact hr.onEnqueue_path
  | tryEnqueue item => exact hr.onTryEnqueue_path
  | written k failed n => exact onWritten_path hr hp failed n
  | readDone failed data => exact onReadDone_path failed data
  | idle => exact onIdle_path
  | setCallback callback given => exact (onSetCallback_growth callback given).path
  | cancel => exact aside_path false s.handshakes s.reads
  | stop => exact onStop_path

/-- Every step of the session is a path of moves. -/
theorem step_path (hr : s.Running .empty) (hp : s.Phase .empty) (op : StepOp) :
    Path cfg (s,.empty) (s.step cfg op,.empty) := by
  cases op with
  | call op => exact (call_growth op).path
  | handler script =>
    cases hqueue : s.queue with
    | nil =>
      simp only [step, hqueue]
      exact .refl
    | cons post rest =>
      simp only [step, hqueue]
      have htake : Path cfg (s,.empty) ({ s with queue := rest, script := script },post.hand) :=
        (Move.take s post rest hqueue).path.trans (Grow.aside _ s.idleArmed s.handshakes s.reads script).growth.path
      exact htake.trans (runPost_path post (hr.path htake) (hp.path htake))

theorem new_running : (new : Session N).Running .empty := ⟨by simp [new],by simp [new],fun _ _ => ⟨rfl,rfl,rfl,rfl,rfl⟩⟩

theorem new_phase : (new : Session N).Phase .empty := fun _ => .inl ⟨rfl,rfl,rfl⟩

theorem run_path_from (hr : s.Running .empty) (hp : s.Phase .empty) (ops : List StepOp) :
    Path cfg (s,.empty) (s.run cfg ops,.empty) := by
  induction ops generalizing s with
  | nil => exact .refl
  | cons op ops ih =>
    have hstep : Path cfg _ _ := step_path hr hp op
    exact hstep.trans (ih (hr.path hstep) (hp.path hstep))

/-- A run is a path of moves from the session that was constructed. -/
theorem run_path (ops : List StepOp) : Path cfg ((new : Session N),.empty) ((new : Session N).run cfg ops,.empty) :=
  run_path_from new_running new_phase ops

end Session
end Wirestead.Transport.ServerSession
