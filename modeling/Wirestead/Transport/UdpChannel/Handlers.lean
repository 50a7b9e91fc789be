import Wirestead.Transport.UdpChannel.Moves

/-! # The handlers of a UDP channel are paths of moves

Whether a send is under way follows from what the handler has taken up; with it, the
hooks of `report_backpressure` start a write only where one may start.
-/
namespace Wirestead.Transport.UdpChannel.Strand
open Diagnostics Sizes TcpClient
variable {N : Type*} [CommRing N] {cfg : Config} {s : Strand N} {h : Hand}

omit [CommRing N] in
/-- At most one send is under way. -/
def Phase (s : Strand N) : Hand → Prop
  | .current _ => s.writing = false ∧ s.channel.sending = []
  | .sent _ => s.writing = true ∧ s.channel.sending = []
  | .done => s.writing = true ∧ s.channel.sending = []
  | _ => (s.writing = true ↔ s.channel.sending ≠ []) ∧ s.channel.sending.length ≤ 1

omit [CommRing N] in
theorem Phase.congr {t : Strand N} (hp : s.Phase h) (hwriting : t.writing = s.writing)
    (hsending : t.channel.sending = s.channel.sending) : t.Phase h := by
  unfold Phase at *
  rw [hwriting, hsending]
  exact hp

omit [CommRing N] in
theorem phase_idle (hwriting : s.writing = false) (hsending : s.channel.sending = []) : s.Phase .empty :=
  ⟨by simp [hwriting, hsending],by simp [hsending]⟩

/-- What a handler takes up decides whether a send is under way. -/
theorem Phase.move {p q : Strand N × Hand} (hp : p.1.Phase p.2) (m : Move cfg p q) : q.1.Phase q.2 := by
  cases m with
  | grow s t h hgrow =>
    have hkept := hgrow.kept
    exact hp.congr hkept.writing hkept.sending
  | activate => exact hp
  | take s post rest hqueue =>
    cases post with
    | write handler => cases handler <;> exact hp
    | expire session generation => exact hp
  | takeSent s item rest hsending =>
    obtain ⟨hwriting,hlength⟩ := hp
    dsimp only at *
    rw [hsending, List.length_cons] at hlength
    refine ⟨hwriting.mpr (by rw [hsending]; exact List.cons_ne_nil _ _),?_⟩
    exact List.eq_nil_of_length_eq_zero (Nat.le_zero.mp (Nat.succ_le_succ_iff.mp hlength))
  | forget | refuse | enqueueTried => exact hp
  | park => rwa [parkedWith_eq]
  | enqueue => rwa [queuedWith_eq]
  | dropTried => rwa [dropQueued_eq]
  | relieve => rwa [relieved_eq]
  | dropDead => rwa [dropQueued_eq]
  | pick s item rest htx hwriting =>
    refine ⟨hwriting,?_⟩
    by_contra hne
    have hw := hp.1.mpr hne
    rw [hwriting] at hw
    cases hw
  | dropUnroutable =>
    rw [dropQueued_eq]
    exact phase_idle rfl hp.2
  | dropCurrent =>
    rw [dropQueued_eq]
    exact phase_idle hp.1 hp.2
  | handOver => exact ⟨by simp,by simp⟩
  | throwing =>
    rw [ended_eq, thrown_eq]
    exact phase_idle rfl hp.2
  | complete => rwa [dropQueued_eq]
  | fail => rwa [dropQueued_eq]
  | discard => rwa [discardSessionQueue_eq]
  | error => rwa [ended_eq]
  | clear => rwa [cleared_eq]
  | rest => exact phase_idle rfl hp.2

theorem Phase.path {p q : Strand N × Hand} (hp : p.1.Phase p.2) (m : Path cfg p q) : q.1.Phase q.2 := by
  induction m with
  | refl => exact hp
  | tail _ m ih => exact ih.move m

omit [CommRing N] in
/-- A channel that nobody has asked to stop. -/
structure Running (s : Strand N) : Prop where
  stopRequested : s.channel.stopRequested = false
  stopping : s.channel.stopping = false
  notified : s.channel.terminalStateNotified = s.channel.state.terminal
  opened : s.channel.state.terminal = true → s.channel.opened = false
  posts : ∀ post ∈ s.queue, post.generation = s.channel.generation

omit [CommRing N] in
theorem Running.closed (hr : s.Running) : s.closed = s.channel.state.terminal := by
  unfold Strand.closed
  rw [hr.stopRequested, hr.stopping]
  cases s.channel.state <;> rfl

omit [CommRing N] in
/-- The posts that a call adds are of the run. -/
theorem Running.grow {t : Strand N} (hr : s.Running) (hkept : Kept s t)
    (hposts : ∀ post ∈ t.queue, post ∈ s.queue ∨ post.generation = s.channel.generation) : t.Running where
  stopRequested := hkept.stopRequested.trans hr.stopRequested
  stopping := hkept.stopping.trans hr.stopping
  notified := by rw [hkept.notified, hkept.state, hr.notified]
  opened := by
    rw [hkept.state, hkept.opened]
    exact hr.opened
  posts := by
    intro post hpost
    rw [hkept.generation]
    exact (hposts post hpost).elim (hr.posts post) id

theorem Running.move {p q : Strand N × Hand} (hr : p.1.Running) (m : Move cfg p q) : q.1.Running := by
  have hself : p.1.Running := hr
  obtain ⟨hstop,hstopping,hnotified,hopened,hposts⟩ := hr
  cases m with
  | grow s t h hgrow =>
    refine hself.grow hgrow.kept ?_
    cases hgrow with
    | capture | endWaits | turn => exact fun post hpost => .inl hpost
    | expire session wait group hwait hgroup =>
      rw [expireSession_eq hwait hgroup]
      intro post hpost
      exact (List.mem_append.mp hpost).imp_right (fun h => by rw [List.mem_singleton.mp h]; rfl)
    | accept =>
      rw [admitted_eq _ _ _ _ _ _ _ (fun _ _ => rfl)]
      intro post hpost
      exact (List.mem_append.mp hpost).imp_right (fun h => by rw [List.mem_singleton.mp h]; rfl)
    | tryAdmit =>
      rw [admitted_eq _ _ _ _ _ _ _ (fun _ _ => rfl), tallyQueued_eq]
      intro post hpost
      exact (List.mem_append.mp hpost).imp_right (fun h => by rw [List.mem_singleton.mp h]; rfl)
    | refuseOversized =>
      intro post hpost
      exact (List.mem_append.mp hpost).imp_right (fun h => by rw [List.mem_singleton.mp h]; rfl)
  | take s post rest hqueue =>
    refine ⟨hstop,hstopping,hnotified,hopened,fun p hp => hposts p ?_⟩
    dsimp only
    rw [hqueue]
    exact List.mem_cons_of_mem _ hp
  | takeSent | forget | refuse | enqueueTried | activate | pick | handOver | rest =>
    exact ⟨hstop,hstopping,hnotified,hopened,hposts⟩
  | park =>
    rw [parkedWith_eq]
    exact ⟨hstop,hstopping,hnotified,hopened,hposts⟩
  | enqueue =>
    rw [queuedWith_eq]
    exact ⟨hstop,hstopping,hnotified,hopened,hposts⟩
  | dropTried =>
    rw [dropQueued_eq]
    exact ⟨hstop,hstopping,hnotified,hopened,hposts⟩
  | relieve =>
    rw [relieved_eq]
    exact ⟨hstop,hstopping,hnotified,hopened,hposts⟩
  | dropDead =>
    rw [dropQueued_eq]
    exact ⟨hstop,hstopping,hnotified,hopened,hposts⟩
  | dropUnroutable =>
    rw [dropQueued_eq]
    exact ⟨hstop,hstopping,hnotified,hopened,hposts⟩
  | dropCurrent =>
    rw [dropQueued_eq]
    exact ⟨hstop,hstopping,hnotified,hopened,hposts⟩
  | throwing =>
    rw [ended_eq, thrown_eq]
    exact ⟨hstop,hstopping,rfl,fun _ => rfl,hposts⟩
  | complete =>
    rw [dropQueued_eq]
    exact ⟨hstop,hstopping,hnotified,hopened,hposts⟩
  | fail =>
    rw [dropQueued_eq]
    exact ⟨hstop,hstopping,hnotified,fun _ => rfl,hposts⟩
  | discard =>
    rw [discardSessionQueue_eq]
    exact ⟨hstop,hstopping,hnotified,hopened,hposts⟩
  | error =>
    rw [ended_eq]
    exact ⟨hstop,hstopping,rfl,fun _ => rfl,hposts⟩
  | clear =>
    rw [cleared_eq]
    exact ⟨hstop,hstopping,hnotified,hopened,hposts⟩

theorem Running.path {p q : Strand N × Hand} (hr : p.1.Running) (m : Path cfg p q) : q.1.Running := by
  induction m with
  | refl => exact hr
  | tail _ m ih => exact ih.move m

theorem reportBackpressure_eq (s : Strand N) (kick : Strand N → Strand N) (queuedBytes : ℕ) :
    s.reportBackpressure cfg kick queuedBytes =
    if s.channel.stopRequested then s
    else if s.channel.backpressureActive = false ∧ cfg.bpHigh ≤ queuedBytes then
      turn cfg { s with channel.backpressureActive := true }
    else if s.channel.backpressureActive = true ∧ queuedBytes ≤ cfg.bpLow then
      let off := s.relieved.turn cfg
      let t := if cfg.bpHigh ≤ off.channel.counters.queueBytes then
        turn cfg { off with channel.backpressureActive := true } else off
      if t.writing then t else kick t
    else s := rfl

theorem report_path {kick : Strand N → Strand N} {queuedBytes : ℕ}
    (hbytes : queuedBytes = s.channel.counters.queueBytes ∨ s.closed = false)
    (hkick : ∀ t, Path cfg (s,h) (t,h) → t.writing = false → Path cfg (t,h) (kick t,h)) :
    Path cfg (s,h) (s.reportBackpressure cfg kick queuedBytes,h) := by
  rw [reportBackpressure_eq]
  split_ifs with hstop hon hoff
  · exact .refl
  · have hhigh : cfg.bpHigh ≤ s.channel.counters.queueBytes ∨ s.closed = false := by
      rcases hbytes with rfl | hclosed
      · exact .inl hon.2
      · exact .inr hclosed
    exact (Move.activate s h hhigh).path.trans turn_growth.path
  · dsimp only
    have hpath : Path cfg (s,h) (s.relieved.turn cfg,h) := (Move.relieve s h hoff.1).path.trans turn_growth.path
    split_ifs with hagain hwriting hwriting
    · exact hpath.trans ((Move.activate _ h (.inl hagain)).path.trans turn_growth.path)
    · have hon := hpath.trans ((Move.activate _ h (.inl hagain)).path.trans turn_growth.path)
      exact hon.trans (hkick _ hon (by simpa using hwriting))
    · exact hpath
    · exact hpath.trans (hkick _ hpath (by simpa using hwriting))
  · exact .refl

/-- While a handler completes a send the hook of `report_backpressure` starts none. -/
theorem report_path_done (hphase : s.Phase .done) (kick : Strand N → Strand N) :
    Path cfg (s,.done) (s.reportBackpressure cfg kick s.channel.counters.queueBytes,.done) := by
  apply report_path (.inl rfl)
  intro t hpath hwriting
  have hbusy := (hphase.path hpath).1
  rw [hwriting] at hbusy
  cases hbusy

theorem drain_path (hclosed : s.closed = true) : Path cfg (s,h) (s.drain cfg,h) := by
  have hclear : Path cfg (s,h) (s.cleared,h) := (Move.clear s h hclosed).path
  change Path cfg (s,h) (if s.channel.backpressureActive then s.cleared.turn cfg else s.cleared,h)
  split_ifs
  · exact hclear.trans turn_growth.path
  · exact hclear

theorem Running.transitionToError_eq (hr : s.Running) (hopen : s.channel.state.terminal = false) :
    s.transitionToError cfg = (if s.channel.backpressureActive then s.ended.turn cfg else s.ended).turn cfg := by
  have hnotified := hr.notified
  rw [hopen] at hnotified
  unfold transitionToError
  rw [hopen, hnotified]
  rfl

theorem Running.transitionToError_path (hr : s.Running) (hempty : h = .empty ∨ h = .done) :
    Path cfg (s,h) (s.transitionToError cfg,h) := by
  cases hopen : s.channel.state.terminal with
  | true =>
    unfold transitionToError
    rw [if_pos hopen]
  | false =>
    rw [hr.transitionToError_eq hopen]
    have hend : Path cfg (s,h) (s.ended,h) := (Move.error s h hempty hopen).path
    split_ifs
    · exact hend.trans (turn_growth.path.trans turn_growth.path)
    · exact hend.trans turn_growth.path

theorem Running.transitionToError_closed (hr : s.Running) : (s.transitionToError cfg).closed = true := by
  cases hopen : s.channel.state.terminal with
  | true =>
    unfold transitionToError
    rw [if_pos hopen, hr.closed, hopen]
  | false =>
    rw [hr.transitionToError_eq hopen]
    have hended : s.ended.closed = true := by
      rw [ended_eq]
      simp [Strand.closed]
    rw [turn_growth.kept.closed]
    split_ifs
    · rw [turn_growth.kept.closed, hended]
    · exact hended

omit [CommRing N] in
theorem dropDead_cons {item : TxItem} {rest : List TxItem} (htx : s.channel.tx = item :: rest)
    (hdead : s.channel.ledger.contains item.request = false) :
    s.dropDead = (dropQueued { s with channel.tx := rest } item).dropDead := by
  rw [dropDead, dropDead, dropQueued_eq]
  dsimp only
  rw [htx, List.takeWhile_cons_of_pos (by simp [hdead]), List.dropWhile_cons_of_pos (by simp [hdead]), List.foldl_cons,
    dropQueued_eq]

omit [CommRing N] in
theorem dropDead_of_live
    (hlive : ∀ item rest, s.channel.tx = item :: rest → s.channel.ledger.contains item.request = true) :
    s.dropDead = s := by
  have hspan : s.channel.tx.takeWhile (fun item => !s.channel.ledger.contains item.request) = [] ∧
      s.channel.tx.dropWhile (fun item => !s.channel.ledger.contains item.request) = s.channel.tx := by
    cases htx : s.channel.tx with
    | nil => exact ⟨rfl,rfl⟩
    | cons item rest =>
      have hitem := hlive item rest htx
      exact ⟨List.takeWhile_cons_of_neg (by simp [hitem]),List.dropWhile_cons_of_neg (by simp [hitem])⟩
  unfold dropDead
  rw [hspan.1, hspan.2]
  rfl

theorem dropDead_path : Path cfg (s,h) (s.dropDead,h) := by
  generalize hn : s.channel.tx.length = n
  induction n generalizing s with
  | zero =>
    rw [dropDead_of_live (by simp [List.eq_nil_of_length_eq_zero hn])]
  | succ n ih =>
    cases htx : s.channel.tx with
    | nil => simp [htx] at hn
    | cons item rest =>
      cases hdead : s.channel.ledger.contains item.request with
      | true =>
        rw [dropDead_of_live]
        intro i r hr
        rw [htx] at hr
        cases hr
        exact hdead
      | false =>
        rw [dropDead_cons htx hdead]
        have hrest : rest.length = n := by
          rw [htx, List.length_cons] at hn
          omega
        refine (Move.dropDead s h item rest htx hdead).path.trans (ih ?_)
        rw [dropQueued_eq]
        exact hrest

/-- A throw while the datagram is handed over ends the channel. -/
theorem Running.send_path (hr : s.Running) (hopen : s.channel.state.terminal = false) (item : TxItem)
    (hlive : s.channel.ledger.contains item.request = true) :
    Path cfg (s,.current item) (s.send cfg item (s.channel.ledger.beginLocked item.request).1,.empty) := by
  unfold send
  dsimp only
  split_ifs
  · have hthrown : (s.thrown item).Running := by
      rw [thrown_eq]
      exact ⟨hr.stopRequested,hr.stopping,hr.notified,fun _ => rfl,hr.posts⟩
    have hstate : (s.thrown item).channel.state.terminal = false := by rwa [thrown_eq]
    have hend : Path cfg (s,.current item) ((s.thrown item).ended,.empty) := (Move.throwing s item hopen).path
    change Path cfg (s,.current item) ((s.thrown item).transitionToError cfg,.empty)
    rw [hthrown.transitionToError_eq hstate]
    split_ifs
    · exact hend.trans (turn_growth.path.trans turn_growth.path)
    · exact hend.trans turn_growth.path
  · exact (Move.handOver s item hlive).path

/-- Calls leave the front of `tx_` where it is. -/
theorem Running.doWriteLoop_path (hr : s.Running) (n : ℕ) : Path cfg (s,.empty) (s.doWriteLoop cfg n,.empty) := by
  induction n generalizing s with
  | zero => exact .refl
  | succ n ih =>
    unfold doWriteLoop
    split_ifs with hidle hclosed hshut
    · exact .refl
    · have hself : ({ s with writing := false } : Strand N) = s := by
        simp only [not_or, Bool.not_eq_true] at hidle
        rw [← hidle.1]
      rw [hself]
      exact drain_path hclosed
    · exact .refl
    · simp only [not_or, Bool.not_eq_true] at hidle hclosed
      have hdead : Path cfg (s,.empty) (s.dropDead,.empty) := dropDead_path
      have hfront : s.dropDead.writing = false ∧ s.dropDead.closed = false := by
        rw [dropDead, foldl_dropQueued]
        exact ⟨hidle.1,hclosed⟩
      refine hdead.trans ?_
      have hrd := hr.path hdead
      dsimp only
      generalize s.dropDead = s at hfront hrd
      split
      · exact report_path (.inl rfl) (fun t hpath _ => ih (hrd.path hpath))
      · rename_i current rest htx
        have hturn : Growth cfg s (s.turn cfg) := turn_growth
        refine hturn.path.trans ?_
        have hkept := hturn.kept
        have hrt := hrd.path (hturn.path (h := .empty))
        generalize s.turn cfg = t at hkept hrt
        have hpick : Path cfg (t,.empty) ({ t with channel.tx := rest },.current current) :=
          (Move.pick t current rest (hkept.tx.trans htx) (hkept.writing.trans hfront.1)).path
        refine hpick.trans ?_
        have hrp := hrt.path hpick
        split
        · rename_i hnone
          have hdrop : Path cfg _ _ := (Move.dropUnroutable ({ t with channel.tx := rest } : Strand N) current
            (Option.or_eq_none_iff.mp hnone)).path
          exact hdrop.trans (ih (hrp.path hdrop))
        · split_ifs with hbegun
          · rw [Ledger.beginLocked_eq_contains] at hbegun
            have hopen : t.channel.state.terminal = false := by
              rw [← hrt.closed, hkept.closed, hfront.2]
            exact hrp.send_path hopen current hbegun
          · have hdead : t.channel.ledger.contains current.request = false := by
              rw [← Ledger.beginLocked_eq_contains]
              simpa using hbegun
            have hdrop : Path cfg _ _ := (Move.dropCurrent ({ t with channel.tx := rest } : Strand N) current hdead).path
            exact hdrop.trans (ih (hrp.path hdrop))

theorem Running.doWrite_path (hr : s.Running) : Path cfg (s,.empty) (s.doWrite cfg,.empty) := hr.doWriteLoop_path _

theorem Running.report_path (hr : s.Running) {queuedBytes : ℕ}
    (hbytes : queuedBytes = s.channel.counters.queueBytes ∨ s.closed = false) :
    Path cfg (s,.empty) (s.report cfg queuedBytes,.empty) :=
  Strand.report_path hbytes (fun _ hpath _ => (hr.path hpath).doWrite_path)

/-- `report_backpressure` and then `do_write`. -/
theorem Running.drive_path (hr : s.Running) :
    Path cfg (s,.empty) ((s.report cfg s.channel.counters.queueBytes).doWrite cfg,.empty) := by
  have hreport : Path cfg _ _ := hr.report_path (.inl rfl)
  exact hreport.trans (hr.path hreport).doWrite_path

theorem Running.enqueueBuffer_path (hr : s.Running) (item : TxItem) :
    Path cfg (s,.posted item) ((s.enqueueBuffer cfg item).1,.empty) := by
  unfold enqueueBuffer
  dsimp only
  split_ifs with hclosed hdead
  · exact (Move.forget s item (.inl hclosed)).path
  · have hforget : Path cfg _ _ := (Move.forget s item (.inr hdead)).path
    exact hforget.trans ((hr.path hforget).report_path (.inl rfl))
  · simp only [Bool.not_eq_true, Bool.not_eq_false] at hclosed hdead
    rw [decideEnqueue_eq]
    by_cases hfull : cfg.bpLimit < s.channel.counters.queueBytes + s.channel.counters.pendingBytes + item.size
    · rw [if_pos hfull]
      have hrefuse : Path cfg _ _ := (Move.refuse s item (by rw [decideEnqueue_eq, if_pos hfull])).path
      exact hrefuse.trans ((hr.path hrefuse).report_path (.inr hclosed))
    · rw [if_neg hfull]
      by_cases hactive : s.channel.backpressureActive = true
      · rw [if_pos hactive]
        exact (Move.park s item hclosed hdead hactive).path
      · rw [if_neg hactive]
        have henqueue : Path cfg _ _ := (Move.enqueue s item hclosed hdead (by simpa using hactive)).path
        exact henqueue.trans ((hr.path henqueue).report_path (.inl rfl))

theorem Running.onWrite_path (hr : s.Running) (item : TxItem) :
    Path cfg (s,.posted item) (s.onWrite cfg item s.channel.generation,.empty) := by
  have hpath : Path cfg _ _ := hr.enqueueBuffer_path item
  unfold onWrite
  rw [if_neg (not_not.mpr rfl)]
  dsimp only
  split_ifs
  · exact hpath.trans (hr.path hpath).doWrite_path
  · exact hpath

theorem Running.onTryWriteTo_path (hr : s.Running) (item : TxItem) :
    Path cfg (s,.tried item) (s.onTryWriteTo cfg item s.channel.generation,.empty) := by
  unfold onTryWriteTo
  rw [if_neg (not_not.mpr rfl)]
  split_ifs with hclosed hdead
  · exact (Move.dropTried s item (.inl hclosed)).path
  · have hdrop : Path cfg _ _ := (Move.dropTried s item (.inr (.inl hdead))).path
    exact hdrop.trans ((hr.path hdrop).report_path (.inl rfl))
  · have henqueue : Path cfg _ _ := (Move.enqueueTried s item (by simpa using hclosed)).path
    exact henqueue.trans ((hr.path henqueue).drive_path)

theorem Running.onTryWrite_path (hr : s.Running) (item : TxItem) (hnone : item.destination = none) :
    Path cfg (s,.tried item) (s.onTryWrite cfg item s.channel.generation,.empty) := by
  unfold onTryWrite
  rw [if_neg (not_not.mpr rfl)]
  split_ifs with hgone
  · refine (Move.dropTried s item ?_).path
    exact hgone.imp id (fun h => .inr ⟨hnone,by simpa using h⟩)
  · have henqueue : Path cfg _ _ := (Move.enqueueTried s item (by simp_all)).path
    exact henqueue.trans ((hr.path henqueue).drive_path)

theorem Running.onOversized_path (hr : s.Running) :
    Path cfg (s,.empty) (s.onOversized cfg s.channel.generation,.empty) := by
  unfold onOversized
  split_ifs
  · exact .refl
  · exact hr.transitionToError_path (.inl rfl)

theorem Running.onExpire_path (hr : s.Running) (session : ℕ) :
    Path cfg (s,.expiring session) (s.onExpire cfg session s.channel.generation,.empty) := by
  unfold onExpire
  rw [if_neg (not_not.mpr rfl)]
  have hdiscard : Path cfg _ _ := (Move.discard s session).path
  exact hdiscard.trans ((hr.path hdiscard).drive_path)

theorem Running.runPost_path (hr : s.Running) (post : Post) (hpost : post.generation = s.channel.generation) :
    Path cfg (s,post.hand) (s.runPost cfg post,.empty) := by
  cases post with
  | write handler =>
    cases handler with
    | enqueue item generation =>
      change generation = s.channel.generation at hpost
      subst hpost
      exact hr.onWrite_path item
    | tryEnqueue item generation =>
      change generation = s.channel.generation at hpost
      subst hpost
      change Path cfg (s,.tried item) (if item.destination.isSome then s.onTryWriteTo cfg item s.channel.generation
        else s.onTryWrite cfg item s.channel.generation,.empty)
      split_ifs with hsome
      · exact hr.onTryWriteTo_path item
      · exact hr.onTryWrite_path item (by simpa using hsome)
    | oversized generation =>
      change generation = s.channel.generation at hpost
      subst hpost
      exact hr.onOversized_path
  | expire session generation =>
    change generation = s.channel.generation at hpost
    subst hpost
    exact hr.onExpire_path session

/-- What follows when a send has completed and its bytes are released. -/
def afterSend (cfg : Config) (s : Strand N) (ec : Bool) : Strand N :=
  let s := s.report cfg s.channel.counters.queueBytes
  if s.closed then { s with writing := false }.drain cfg
  else if ec then { s.transitionToError cfg with writing := false }.drain cfg
  else { s with writing := false }.doWrite cfg

theorem onSent_eq (s : Strand N) (item : TxItem) (failed : Bool) (written : ℕ) : s.onSent cfg item failed written =
    let ec := failed || written ≠ item.size
    let done : Strand N := { s with channel.ledger := s.channel.ledger.completeLocked item.request written }
    ((if ec ∧ ¬s.channel.stopRequested then { done with channel := done.channel.failWrites } else done).dropQueued
      item).afterSend cfg ec := rfl

theorem Running.afterSend_path (hr : s.Running) (hphase : s.Phase .done) (ec : Bool) :
    Path cfg (s,.done) (s.afterSend cfg ec,.empty) := by
  have hreport : Path cfg (s,.done) (s.report cfg s.channel.counters.queueBytes,.done) :=
    report_path_done hphase _
  unfold afterSend
  refine hreport.trans ?_
  have hrr := hr.path hreport
  dsimp only
  generalize s.report cfg s.channel.counters.queueBytes = s at hrr
  split_ifs with hclosed hec
  · exact (Move.rest s).path.trans (drain_path hclosed)
  · have herror : Path cfg _ _ := hrr.transitionToError_path (h := .done) (.inr rfl)
    exact herror.trans ((Move.rest _).path.trans (drain_path hrr.transitionToError_closed))
  · have hrest : Path cfg _ _ := (Move.rest s).path
    exact hrest.trans (hrr.path hrest).doWrite_path

theorem Running.onSent_path (hr : s.Running) (item : TxItem) (hphase : s.Phase (.sent item)) (failed : Bool)
    (written : ℕ) : Path cfg (s,.sent item) (s.onSent cfg item failed written,.empty) := by
  rw [onSent_eq]
  dsimp only
  split_ifs with hlost
  · have hfail : Path cfg _ _ := (Move.fail s item written).path
    exact hfail.trans ((hr.path hfail).afterSend_path (hphase.path hfail) _)
  · have hcomplete : Path cfg _ _ := (Move.complete s item written).path
    exact hcomplete.trans ((hr.path hcomplete).afterSend_path (hphase.path hcomplete) _)

/-- Every step of the channel is a path of moves. -/
theorem step_path (hr : s.Running) (hphase : s.Phase .empty) (op : StepOp) :
    Path cfg (s,.empty) (s.step cfg op,.empty) := by
  cases op with
  | call op => exact (call_growth op).path
  | handler script =>
    cases hqueue : s.queue with
    | nil =>
      simp only [step, hqueue]
      exact .refl
    | cons post rest =>
      simp only [step, hqueue]
      have htake : Path cfg (s,.empty) ({ s with queue := rest, script := script },post.hand) :=
        (Move.take s post rest hqueue).path.trans (Grow.turn _ script).growth.path
      refine htake.trans ((hr.path htake).runPost_path post ?_)
      exact hr.posts post (by rw [hqueue]; exact List.mem_cons_self)
  | sent failed written script =>
    cases hsending : s.channel.sending with
    | nil =>
      simp only [step, hsending]
      exact .refl
    | cons item rest =>
      simp only [step, hsending]
      have htake : Path cfg (s,.empty) ({ s with channel.sending := rest, script := script },.sent item) :=
        (Move.takeSent s item rest hsending).path.trans (Grow.turn _ script).growth.path
      exact htake.trans ((hr.path htake).onSent_path item (hphase.path htake) failed written)

theorem opened_running (generation : ℕ) (remote : Option Endpoint) : (opened (N := N) generation remote).Running where
  stopRequested := rfl
  stopping := rfl
  notified := by cases remote <;> rfl
  opened := by cases remote <;> exact nofun
  posts := by simp [opened]

theorem opened_phase (generation : ℕ) (remote : Option Endpoint) : (opened (N := N) generation remote).Phase .empty :=
  phase_idle rfl rfl

/-- A run is a path of moves from the channel that was opened. -/
theorem run_path (generation : ℕ) (remote : Option Endpoint) (ops : List StepOp) :
    Path cfg (opened (N := N) generation remote,.empty) ((opened (N := N) generation remote).run cfg ops,.empty) := by
  have hrun : ∀ s : Strand N, s.Running → s.Phase .empty → Path cfg (s,.empty) (s.run cfg ops,.empty) := by
    induction ops with
    | nil => exact fun _ _ _ => .refl
    | cons op ops ih =>
      intro s hr hphase
      have hstep : Path cfg _ _ := step_path hr hphase op
      exact hstep.trans (ih _ (hr.path hstep) (hphase.path hstep))
  exact hrun _ (opened_running generation remote) (opened_phase generation remote)

end Wirestead.Transport.UdpChannel.Strand
