import Wirestead.Transport.UdpChannel.Ordered

/-! # A UDP channel does not stall

Between two handlers something is always on its way: a datagram in `tx_` means that a send
is under way, and pressure is on for a reason that will go away. A channel with nothing on
its strand and nothing at its socket has therefore handed over whatever it accepted.
-/
namespace Wirestead.Transport.UdpChannel
open Diagnostics Sizes TcpClient

theorem Config.bpLow_lt (cfg : Config) : cfg.bpLow < cfg.bpHigh := by
  have hge := cfg.threshold_ge
  unfold bpLow bpHigh
  dsimp only
  split_ifs <;> omega

namespace Strand
variable {N : Type*} {cfg : Config} {s t : Strand N} {h k : Hand}

/-- Pressure will be looked at again once the queue has drained or a session is cleaned up. -/
def Attended (cfg : Config) (s : Strand N) : Prop :=
  cfg.bpLow < s.channel.counters.queueBytes ∨ s.writing = true ∨ ∃ i g, .expire i g ∈ s.queue

/-- Between two handlers. -/
structure Settled (cfg : Config) (s : Strand N) : Prop where
  opened : s.channel.opened = true
  sending : s.channel.tx ≠ [] → s.writing = true
  pressure : s.channel.backpressureActive = true → s.Attended cfg

/-- Before `do_write`, which will find what `tx_` holds. -/
structure Ready (cfg : Config) (s : Strand N) : Prop where
  opened : s.channel.opened = true
  pressure : s.channel.backpressureActive = true → s.Attended cfg ∨ s.channel.tx ≠ []

/-- The channel has ended, or it is settled. -/
def Calm (cfg : Config) (s : Strand N) : Prop := s.channel.state.terminal = true ∨ s.Settled cfg

theorem Settled.ready (hs : s.Settled cfg) : s.Ready cfg := ⟨hs.opened,fun h => .inl (hs.pressure h)⟩

theorem Ready.settled (hr : s.Ready cfg) (hidle : s.writing = true ∨ s.channel.tx = []) : s.Settled cfg where
  opened := hr.opened
  sending := fun hne => hidle.resolve_right hne
  pressure := by
    intro hactive
    rcases hidle with hwriting | hnil
    · exact .inr (.inl hwriting)
    · exact (hr.pressure hactive).resolve_right (fun hne => hne hnil)

variable [CommRing N]

theorem Grow.queueBytes_le (g : Grow cfg s t) : s.channel.counters.queueBytes ≤ t.channel.counters.queueBytes := by
  cases g with
  | capture | endWaits | turn | refuseOversized => exact le_rfl
  | expire session wait group hwait hgroup =>
    rw [expireSession_eq hwait hgroup]
  | accept data storage destination session counters hadmits hroom =>
    obtain ⟨-,rfl⟩ := tryReserveLimitBytes_some hroom
    rw [admitted_eq _ _ _ _ _ _ _ (fun _ _ => rfl)]
  | tryAdmit data storage destination session counters hadmits hroom =>
    obtain ⟨-,-,rfl⟩ := tryReserveWriteBytesLocked_some hroom
    rw [admitted_eq _ _ _ _ _ _ _ (fun _ _ => rfl), tallyQueued_eq]
    exact Nat.le_add_right _ _

theorem Growth.queueBytes_le (g : Growth cfg s t) : s.channel.counters.queueBytes ≤ t.channel.counters.queueBytes := by
  induction g with
  | refl => exact le_rfl
  | tail _ g ih => exact ih.trans g.queueBytes_le

theorem Attended.growth (ha : s.Attended cfg) (g : Growth cfg s t) : t.Attended cfg := by
  have hkept := g.kept
  rcases ha with hhigh | hwriting | ⟨i,g',hpost⟩
  · exact .inl (hhigh.trans_le g.queueBytes_le)
  · exact .inr (.inl (hkept.writing.trans hwriting))
  · exact .inr (.inr ⟨i,g',hkept.queue.subset hpost⟩)

theorem Settled.growth (hs : s.Settled cfg) (g : Growth cfg s t) : t.Settled cfg where
  opened := g.kept.opened.trans hs.opened
  sending := by
    rw [g.kept.tx, g.kept.writing]
    exact hs.sending
  pressure := by
    rw [g.kept.active]
    exact fun hactive => (hs.pressure hactive).growth g

/-- A request that a call takes away leaves a clean-up on the strand. -/
theorem Growth.live_or_expire (hs : s.Sound cfg h) (g : Growth cfg s t) {id : ℕ}
    (hlive : s.channel.ledger.contains id = true) :
    t.channel.ledger.contains id = true ∨ ∃ i g, .expire i g ∈ t.queue := by
  induction g with
  | refl => exact .inl hlive
  | @tail u v g' g ih =>
    have hvalid := (hs.path (Growth.path g')).tracked.valid
    rcases ih with hlive | ⟨i,g'',hpost⟩
    · cases g with
      | capture | endWaits | turn | refuseOversized => exact .inl hlive
      | expire session wait group hwait hgroup =>
        rw [expireSession_eq hwait hgroup]
        exact .inr ⟨session,_,List.mem_append_right _ List.mem_cons_self⟩
      | accept =>
        rw [admitted_eq _ _ _ _ _ _ _ (fun _ _ => rfl)]
        exact .inl (((hvalid.admitRequest_live _ _).2.2.2 id).mpr (.inl hlive))
      | tryAdmit =>
        rw [admitted_eq _ _ _ _ _ _ _ (fun _ _ => rfl), tallyQueued_eq]
        exact .inl (((hvalid.admitRequest_live _ _).2.2.2 id).mpr (.inl hlive))
    · exact .inr ⟨i,g'',g.kept.queue.subset hpost⟩

/-- A channel that has ended stays so. -/
theorem Move.terminal (m : Move cfg (s,h) (t,k)) (hterminal : s.channel.state.terminal = true) :
    t.channel.state.terminal = true := by
  cases m with
  | grow s t h g =>
    rw [g.kept.state]
    exact hterminal
  | take | takeSent | forget | refuse | enqueueTried | activate | pick | handOver | rest => exact hterminal
  | park =>
    rw [parkedWith_eq]
    exact hterminal
  | enqueue =>
    rw [queuedWith_eq]
    exact hterminal
  | dropTried | dropDead | dropUnroutable | dropCurrent | complete | fail =>
    rw [dropQueued_eq]
    exact hterminal
  | relieve =>
    rw [relieved_eq]
    exact hterminal
  | throwing =>
    rw [ended_eq]
    rfl
  | discard =>
    rw [discardSessionQueue_eq]
    exact hterminal
  | error =>
    rw [ended_eq]
    rfl
  | clear =>
    rw [cleared_eq]
    exact hterminal

theorem Path.terminal {p q : Strand N × Hand} (m : Path cfg p q) (hterminal : p.1.channel.state.terminal = true) :
    q.1.channel.state.terminal = true := by
  induction m with
  | refl => exact hterminal
  | tail _ m ih => exact m.terminal ih

/-- Pressure comes on above the high mark, and the callback only adds to the queue. -/
theorem activate_outcome (hhigh : cfg.bpHigh ≤ s.channel.counters.queueBytes) :
    ∃ u : Strand N, turn cfg { s with channel.backpressureActive := true } = u ∧ Path cfg (s,h) (u,h) ∧
      u.writing = s.writing ∧ u.channel.opened = s.channel.opened ∧ u.channel.tx = s.channel.tx ∧
      u.channel.pending = s.channel.pending ∧ cfg.bpLow < u.channel.counters.queueBytes := by
  have hgrowth : Growth cfg { s with channel.backpressureActive := true } _ := turn_growth
  have hkept := hgrowth.kept
  have hbytes : cfg.bpLow < _ := (cfg.bpLow_lt.trans_le hhigh).trans_le hgrowth.queueBytes_le
  exact ⟨_,rfl,(Move.activate s h (.inl hhigh)).path.trans hgrowth.path,hkept.writing,hkept.opened,hkept.tx,
    hkept.pending,hbytes⟩

/-- The callback of the OFF transition finds the parked datagrams in `tx_`. -/
theorem relieve_outcome (cfg : Config) (hactive : s.channel.backpressureActive = true) :
    ∃ off : Strand N, s.relieved.turn cfg = off ∧ Path cfg (s,h) (off,h) ∧ off.writing = s.writing ∧
      off.channel.opened = s.channel.opened ∧ off.channel.tx = s.channel.tx ++ s.channel.pending ∧
      off.channel.pending = [] ∧ off.channel.backpressureActive = false := by
  have hgrowth : Growth cfg s.relieved _ := turn_growth
  have hkept := hgrowth.kept
  have hpath := (Move.relieve s h hactive).path.trans hgrowth.path
  refine ⟨_,rfl,hpath,?_,?_,?_,?_,?_⟩
  · exact hkept.writing.trans (by rw [relieved_eq])
  · exact hkept.opened.trans (by rw [relieved_eq])
  · exact hkept.tx.trans (by rw [relieved_eq])
  · exact hkept.pending.trans (by rw [relieved_eq])
  · exact hkept.active.trans (by rw [relieved_eq])

/-- After `report_backpressure` pressure is on only above the low mark; otherwise the parked
datagrams have moved up, and a write is started if none was under way. -/
theorem report_outcome (cfg : Config) (hr : s.Running) (kick : Strand N → Strand N) :
    ∃ u : Strand N, Path cfg (s,h) (u,h) ∧ u.writing = s.writing ∧ u.channel.opened = s.channel.opened ∧
      (u.channel.backpressureActive = true → cfg.bpLow < u.channel.counters.queueBytes) ∧
      (s.reportBackpressure cfg kick s.channel.counters.queueBytes = u ∧
          (s.writing = true ∨ u.channel.tx = s.channel.tx) ∨
        s.writing = false ∧ s.reportBackpressure cfg kick s.channel.counters.queueBytes = kick u ∧
          u.channel.tx = s.channel.tx ++ s.channel.pending ∧ u.channel.pending = []) := by
  rw [reportBackpressure_eq]
  split_ifs with hstop hon hoff
  · rw [hr.stopRequested] at hstop
    cases hstop
  · obtain ⟨u,heq,hpath,hwriting,hopened,htx,-,hbytes⟩ := activate_outcome (h := h) hon.2
    exact ⟨u,hpath,hwriting,hopened,fun _ => hbytes,.inl ⟨heq,.inr htx⟩⟩
  · obtain ⟨off,heq,hpath,hwriting,hopened,htx,hpending,hactive⟩ := relieve_outcome cfg (h := h) hoff.1
    rw [heq]
    dsimp only
    -- pressure may come on again during the callback
    obtain ⟨u,heq,hpath,hwriting,hopened,htx,hpending,hbytes⟩ : ∃ u : Strand N,
        (if cfg.bpHigh ≤ off.channel.counters.queueBytes then
          turn cfg { off with channel.backpressureActive := true } else off) = u ∧ Path cfg (s,h) (u,h) ∧
        u.writing = s.writing ∧ u.channel.opened = s.channel.opened ∧
        u.channel.tx = s.channel.tx ++ s.channel.pending ∧ u.channel.pending = [] ∧
        (u.channel.backpressureActive = true → cfg.bpLow < u.channel.counters.queueBytes) := by
      split_ifs with hagain
      · obtain ⟨u,heq,hpath',hwriting',hopened',htx',hpending',hbytes⟩ := activate_outcome (h := h) hagain
        exact ⟨u,heq,hpath.trans hpath',hwriting'.trans hwriting,hopened'.trans hopened,htx'.trans htx,
          hpending'.trans hpending,fun _ => hbytes⟩
      · exact ⟨off,rfl,hpath,hwriting,hopened,htx,hpending,fun h => by simp [hactive] at h⟩
    rw [heq]
    refine ⟨u,hpath,hwriting,hopened,hbytes,?_⟩
    split_ifs with hbusy
    · exact .inl ⟨rfl,.inl (hwriting.symm.trans hbusy)⟩
    · exact .inr ⟨by simpa [hwriting] using hbusy,rfl,htx,hpending⟩
  · refine ⟨s,.refl,rfl,rfl,fun hactive => ?_,.inl ⟨rfl,.inr rfl⟩⟩
    by_contra hle
    exact hoff ⟨hactive,not_lt.mp hle⟩

theorem Running.transitionToError_terminal (hr : s.Running) :
    (s.transitionToError cfg).channel.state.terminal = true := by
  have hpath : Path cfg (s,.empty) _ := hr.transitionToError_path (.inl rfl)
  rw [← (hr.path hpath).closed]
  exact hr.transitionToError_closed

theorem Running.drain_terminal (hr : s.Running) (hterminal : s.channel.state.terminal = true) :
    (s.drain cfg).channel.state.terminal = true := by
  have hpath : Path cfg (s,.empty) _ := drain_path (hr.closed.trans hterminal)
  exact hpath.terminal hterminal

/-- After a handover a send is under way, unless the socket threw. -/
theorem Running.send_calm (hr : s.Running) (hopened : s.channel.opened = true) (item : TxItem) :
    (s.send cfg item (s.channel.ledger.beginLocked item.request).1).Calm cfg := by
  unfold send
  dsimp only
  split_ifs
  · have hthrown : (s.thrown item).Running := by
      rw [thrown_eq]
      exact ⟨hr.stopRequested,hr.stopping,hr.notified,fun _ => rfl,hr.posts⟩
    exact .inl hthrown.transitionToError_terminal
  · exact .inr ⟨hopened,fun _ => rfl,fun _ => .inr (.inl rfl)⟩

/-- `report_backpressure` where nothing is left to write. -/
theorem reportBackpressure_calm (hs : s.Sound cfg .empty) {kick : Strand N → Strand N}
    (hopened : s.channel.opened = true) (hidle : s.channel.tx ≠ [] → s.writing = true)
    (hkick : ∀ u : Strand N, u.Sound cfg .empty → u.Ready cfg →
      u.channel.tx.length + u.channel.pending.length = s.channel.tx.length + s.channel.pending.length →
      (kick u).Calm cfg) :
    (s.reportBackpressure cfg kick s.channel.counters.queueBytes).Calm cfg := by
  obtain ⟨u,hpath,hwriting,hopen,hbytes,hcases⟩ := report_outcome cfg (h := .empty) hs.metered.running kick
  have hready : u.Ready cfg := ⟨hopen.trans hopened,fun hactive => .inl (.inl (hbytes hactive))⟩
  rcases hcases with ⟨heq,hquiet⟩ | ⟨-,heq,htx,hpending⟩
  · rw [heq]
    refine .inr (hready.settled ?_)
    rcases hquiet with hbusy | htx
    · exact .inl (hwriting.trans hbusy)
    · by_cases hnil : s.channel.tx = []
      · exact .inr (htx.trans hnil)
      · exact .inl (hwriting.trans (hidle hnil))
  · rw [heq]
    exact hkick u (hs.path hpath) hready (by simp [htx, hpending])

/-- Unless it ends the channel finds every datagram of `tx_`, or a send is under way. -/
theorem doWriteLoop_calm (n : ℕ) (hs : s.Sound cfg .empty) (hready : s.channel.state.terminal = true ∨ s.Ready cfg)
    (hn : s.channel.tx.length + s.channel.pending.length ≤ n) : (s.doWriteLoop cfg n).Calm cfg := by
  induction n generalizing s with
  | zero =>
    have hnil : s.channel.tx = [] := List.eq_nil_of_length_eq_zero (by omega)
    exact hready.imp id (fun hr => hr.settled (.inr hnil))
  | succ n ih =>
    have hr := hs.metered.running
    by_cases hend : s.channel.state.terminal = true
    · exact .inl ((hr.doWriteLoop_path (n + 1)).terminal hend)
    have hready := hready.resolve_left hend
    have hopen := hready.opened
    unfold doWriteLoop
    split_ifs with hidle hclosed hshut
    · exact .inr (hready.settled hidle)
    · exact absurd (hr.closed.symm.trans hclosed) hend
    · simp [hr.stopRequested, hopen] at hshut
    have hdead : Path cfg (s,.empty) (s.dropDead,.empty) := dropDead_path
    have hdropped : s.dropDead.channel.opened = true ∧ s.dropDead.writing = false ∧
        s.dropDead.channel.pending = s.channel.pending ∧
        s.dropDead.channel.tx = s.channel.tx.dropWhile (fun item => !s.channel.ledger.contains item.request) ∧
        s.dropDead.channel.ledger = s.channel.ledger := by
      rw [dropDead, foldl_dropQueued]
      exact ⟨hopen,by simpa using (not_or.mp hidle).1,rfl,rfl,rfl⟩
    obtain ⟨hopen,hwriting,hpending,htx,hledger⟩ := hdropped
    have hs := hs.path hdead
    dsimp only at hs ⊢
    generalize s.dropDead = d at *
    cases hfront : d.channel.tx with
    | nil =>
      have hpos : 0 < s.channel.tx.length := List.length_pos_iff.mpr (not_or.mp hidle).2
      refine reportBackpressure_calm hs hopen (fun hne => absurd hfront hne) (fun u hu hready hlength => ?_)
      refine ih hu (.inr hready) ?_
      rw [hlength, hfront, hpending, List.length_nil]
      omega
    | cons current rest =>
      have hlive : d.channel.ledger.contains current.request = true := by
        have hkeeps : s.channel.tx.dropWhile (fun item => !s.channel.ledger.contains item.request) = current :: rest :=
          htx.symm.trans hfront
        have hhead := List.head_dropWhile_not (fun item => !s.channel.ledger.contains item.request)
          (l := s.channel.tx) (by simp [hkeeps])
        simpa [hkeeps, hledger] using hhead
      have hshort : (current :: rest).length ≤ s.channel.tx.length := by
        rw [← hfront, htx]
        exact List.length_dropWhile_le _ _
      have hgrowth : Growth cfg d (d.turn cfg) := turn_growth
      have hkept := hgrowth.kept
      have hst := hs.path (hgrowth.path (h := .empty))
      have hstill := hgrowth.live_or_expire hs hlive
      dsimp only at hst ⊢
      generalize d.turn cfg = t at *
      have hpick : Path cfg (t,.empty) ({ t with channel.tx := rest },.current current) :=
        (Move.pick t current rest (hkept.tx.trans hfront) (hkept.writing.trans hwriting)).path
      have hsp := hst.path hpick
      have hopent : t.channel.opened = true := hkept.opened.trans hopen
      split
      · rename_i hnone
        obtain ⟨hdest,hremote⟩ := Option.or_eq_none_iff.mp hnone
        have hsome := hsp.tracked.routable current (by simp [waiting, Hand.front]) hdest
        simp [hremote] at hsome
      · split_ifs with hbegun
        · exact hsp.metered.running.send_calm hopent current
        · have hgone : t.channel.ledger.contains current.request = false := by
            rw [← Ledger.beginLocked_eq_contains]
            simpa using hbegun
          have hdrop : Path cfg _ _ := (Move.dropCurrent ({ t with channel.tx := rest } : Strand N) current hgone).path
          refine ih (hsp.path hdrop) (.inr ?_) ?_
          · rw [dropQueued_eq]
            have hexpire := hstill.resolve_left (by simp [hgone])
            exact ⟨hopent,fun _ => .inl (.inr (.inr hexpire))⟩
          · rw [dropQueued_eq]
            simp only [List.length_cons] at hshort
            dsimp only
            rw [hkept.pending, hpending]
            omega

theorem Sound.doWrite_calm (hs : s.Sound cfg .empty) (hready : s.channel.state.terminal = true ∨ s.Ready cfg) :
    (s.doWrite cfg).Calm cfg := doWriteLoop_calm _ hs hready le_rfl

theorem Sound.report_calm (hs : s.Sound cfg .empty) (hopened : s.channel.opened = true)
    (hidle : s.channel.tx ≠ [] → s.writing = true) : (s.report cfg s.channel.counters.queueBytes).Calm cfg :=
  reportBackpressure_calm hs hopened hidle (fun _ hu hready _ => hu.doWrite_calm (.inr hready))

/-- `report_backpressure` and then `do_write`, whatever the handler has done before. -/
theorem Sound.drive_calm (hs : s.Sound cfg .empty) (hopened : s.channel.opened = true) :
    ((s.report cfg s.channel.counters.queueBytes).doWrite cfg).Calm cfg := by
  have hpath : Path cfg (s,.empty) _ := hs.metered.running.report_path (.inl rfl)
  refine (hs.path hpath).doWrite_calm ?_
  obtain ⟨u,hu,-,hopen,hbytes,hcases⟩ :=
    report_outcome cfg (h := .empty) hs.metered.running (doWrite cfg)
  have hready : u.Ready cfg := ⟨hopen.trans hopened,fun hactive => .inl (.inl (hbytes hactive))⟩
  unfold report
  rcases hcases with ⟨heq,-⟩ | ⟨-,heq,-,-⟩
  · rw [heq]
    exact .inr hready
  · rw [heq]
    exact ((hs.path hu).doWrite_calm (.inr hready)).imp id Settled.ready

omit [CommRing N] in
theorem Settled.congr (hs : s.Settled cfg) (hopened : t.channel.opened = s.channel.opened)
    (htx : t.channel.tx = s.channel.tx) (hwriting : t.writing = s.writing)
    (hactive : t.channel.backpressureActive = s.channel.backpressureActive)
    (hbytes : t.channel.counters.queueBytes = s.channel.counters.queueBytes)
    (hqueue : ∀ i g, .expire i g ∈ s.queue → .expire i g ∈ t.queue) : t.Settled cfg where
  opened := hopened.trans hs.opened
  sending := by
    rw [htx, hwriting]
    exact hs.sending
  pressure := by
    unfold Attended
    rw [hactive, hbytes, hwriting]
    exact fun h => (hs.pressure h).imp_right (.imp_right (fun ⟨i,g,hpost⟩ => ⟨i,g,hqueue i g hpost⟩))

/-- A datagram whose handler finds the channel ended changes nothing of that. -/
theorem Path.calm {p q : Strand N × Hand} (m : Path cfg p q) (hterminal : p.1.channel.state.terminal = true) :
    q.1.Calm cfg := .inl (m.terminal hterminal)

/-- A reserved write is never refused. -/
theorem Bounded.enqueueBuffer_cases {item : TxItem} (hb : s.Bounded cfg (.posted item)) (hopen : s.closed = false) :
    s.channel.ledger.contains item.request = false ∧ s.enqueueBuffer cfg item =
      (report cfg { s with channel.counters := releaseReservedLimitBytes s.channel.counters item.size }
        s.channel.counters.queueBytes,false) ∨
    s.channel.ledger.contains item.request = true ∧ s.channel.backpressureActive = true ∧
      s.enqueueBuffer cfg item = (s.parkedWith item,true) ∨
    s.channel.ledger.contains item.request = true ∧ s.channel.backpressureActive = false ∧
      s.enqueueBuffer cfg item =
        ((s.queuedWith item).report cfg (s.queuedWith item).channel.counters.queueBytes,true) := by
  have hfits := hb.not_refused
  unfold enqueueBuffer
  simp only [hopen, Bool.false_eq_true, if_false]
  cases hdead : s.channel.ledger.contains item.request with
  | false =>
    rw [if_pos rfl]
    exact .inl ⟨rfl,rfl⟩
  | true =>
    rw [if_neg nofun]
    rw [decideEnqueue_eq] at hfits ⊢
    split_ifs at hfits ⊢ with hfull hactive
    · exact absurd rfl hfits
    · exact .inr (.inl ⟨rfl,hactive,rfl⟩)
    · refine .inr (.inr ⟨rfl,by simpa using hactive,?_⟩)
      rw [queuedWith_eq, tallyQueued_eq]

theorem Sound.onWrite_calm {item : TxItem} (hs : s.Sound cfg (.posted item)) (hset : s.Settled cfg)
    (hopen : s.closed = false) : (s.onWrite cfg item s.channel.generation).Calm cfg := by
  unfold onWrite
  rw [if_neg (not_not.mpr rfl)]
  dsimp only
  rcases hs.metered.bounded.enqueueBuffer_cases hopen with ⟨hdead,heq⟩ | ⟨hlive,hactive,heq⟩ | ⟨hlive,hactive,heq⟩
  · rw [heq, if_neg nofun]
    have hforget : Path cfg _ _ := (Move.forget s item (.inr hdead)).path
    exact (hs.path hforget).report_calm hset.opened hset.sending
  · rw [heq, if_pos rfl]
    have hpark : Path cfg _ _ := (Move.park s item hopen hlive hactive).path
    refine (hs.path hpark).doWrite_calm (.inr (Settled.ready ?_))
    rw [parkedWith_eq]
    exact hset.congr rfl rfl rfl rfl rfl (fun _ _ => id)
  · rw [heq, if_pos rfl]
    have henqueue : Path cfg _ _ := (Move.enqueue s item hopen hlive hactive).path
    refine (hs.path henqueue).drive_calm ?_
    rw [queuedWith_eq]
    exact hset.opened

theorem Sound.onTryWriteTo_calm {item : TxItem} (hs : s.Sound cfg (.tried item)) (hset : s.Settled cfg)
    (hopen : s.closed = false) : (s.onTryWriteTo cfg item s.channel.generation).Calm cfg := by
  unfold onTryWriteTo
  rw [if_neg (not_not.mpr rfl), if_neg (by simp [hopen])]
  split_ifs with hdead
  · have hdrop : Path cfg _ _ := (Move.dropTried s item (.inr (.inl hdead))).path
    have hsd := hs.path hdrop
    dsimp only at hsd ⊢
    rw [dropQueued_eq] at hsd ⊢
    exact hsd.report_calm hset.opened hset.sending
  · have henqueue : Path cfg _ _ := (Move.enqueueTried s item hopen).path
    exact (hs.path henqueue).drive_calm hset.opened

/-- The remote of a channel does not go away, so the handler finds it. -/
theorem Sound.onTryWrite_calm {item : TxItem} (hs : s.Sound cfg (.tried item)) (hset : s.Settled cfg)
    (hopen : s.closed = false) (hnone : item.destination = none) :
    (s.onTryWrite cfg item s.channel.generation).Calm cfg := by
  have hremote := hs.tracked.routable item (by simp [waiting, Hand.back]) hnone
  unfold onTryWrite
  rw [if_neg (not_not.mpr rfl), if_neg (by simp [hopen, ← Option.not_isSome, hremote])]
  have henqueue : Path cfg _ _ := (Move.enqueueTried s item hopen).path
  exact (hs.path henqueue).drive_calm hset.opened

theorem Sound.onExpire_calm {session : ℕ} (hs : s.Sound cfg (.expiring session)) (hopened : s.channel.opened = true) :
    (s.onExpire cfg session s.channel.generation).Calm cfg := by
  unfold onExpire
  rw [if_neg (not_not.mpr rfl)]
  have hdiscard : Path cfg _ _ := (Move.discard s session).path
  refine (hs.path hdiscard).drive_calm ?_
  rw [discardSessionQueue_eq]
  exact hopened

/-- The completion of a send looks at the queue before it lets the next one start. -/
theorem Sound.afterSend_calm (hs : s.Sound cfg .done) (ec : Bool) (hopened : s.channel.opened = true ∨ ec = true) :
    (s.afterSend cfg ec).Calm cfg := by
  have hr := hs.metered.running
  have hbusy := hs.metered.phase.1
  obtain ⟨u,hpath,-,hopen,hbytes,hcases⟩ := report_outcome cfg (h := .done) hr (doWrite cfg)
  have heq : s.report cfg s.channel.counters.queueBytes = u := by
    rcases hcases with ⟨heq,-⟩ | ⟨hidle,-⟩
    · exact heq
    · rw [hbusy] at hidle
      cases hidle
  have hsu := hs.path hpath
  have hru := hsu.metered.running
  unfold afterSend
  rw [heq]
  dsimp only at hsu ⊢
  split_ifs with hclosed hec
  · have hrest : Path cfg (u,.done) ({ u with writing := false },.empty) := (Move.rest u).path
    exact .inl ((hru.path hrest).drain_terminal (hru.closed.symm.trans hclosed))
  · have hrest : Path cfg (u.transitionToError cfg,.done) ({ u.transitionToError cfg with writing := false },.empty) :=
      (Move.rest _).path
    have herror : Path cfg (u,.done) _ := hru.transitionToError_path (.inr rfl)
    exact .inl (((hru.path herror).path hrest).drain_terminal hru.transitionToError_terminal)
  · have hrest : Path cfg (u,.done) ({ u with writing := false },.empty) := (Move.rest u).path
    have hready : ({ u with writing := false } : Strand N).Ready cfg :=
      ⟨hopen.trans (hopened.resolve_right hec),fun hactive => .inl (.inl (hbytes hactive))⟩
    exact (hsu.path hrest).doWrite_calm (.inr hready)

theorem Sound.onSent_calm {item : TxItem} (hs : s.Sound cfg (.sent item)) (hopened : s.channel.opened = true)
    (failed : Bool) (written : ℕ) : (s.onSent cfg item failed written).Calm cfg := by
  rw [onSent_eq]
  dsimp only
  split_ifs with hlost
  · have hfail : Path cfg _ _ := (Move.fail s item written).path
    exact (hs.path hfail).afterSend_calm _ (.inr hlost.1)
  · have hcomplete : Path cfg _ _ := (Move.complete s item written).path
    refine (hs.path hcomplete).afterSend_calm _ (.inl ?_)
    rw [dropQueued_eq]
    exact hopened

/-- Every step leaves the channel settled, or has ended it. -/
theorem step_calm (hs : s.Sound cfg .empty) (hcalm : s.Calm cfg) (op : StepOp) : (s.step cfg op).Calm cfg := by
  have hr := hs.metered.running
  by_cases hend : s.channel.state.terminal = true
  · exact (step_path hr hs.metered.phase op).calm hend
  have hset := hcalm.resolve_left hend
  cases op with
  | call op => exact .inr (hset.growth (call_growth op))
  | handler script =>
    cases hqueue : s.queue with
    | nil =>
      simp only [step, hqueue]
      exact .inr hset
    | cons post rest =>
      simp only [step, hqueue]
      have htake : Path cfg (s,.empty) ({ s with queue := rest, script := script },post.hand) :=
        (Move.take s post rest hqueue).path.trans (Grow.turn _ script).growth.path
      have hst := hs.path htake
      have hpost := hr.posts post (by rw [hqueue]; exact List.mem_cons_self)
      have hclosed : ({ s with queue := rest, script := script } : Strand N).closed = false :=
        hr.closed.trans (by simpa using hend)
      have hopened := hset.opened
      -- any post but a clean-up leaves the clean-ups where they are
      have hrest : (∀ i g, post ≠ .expire i g) →
          ({ s with queue := rest, script := script } : Strand N).Settled cfg := by
        intro hne
        refine hset.congr rfl rfl rfl rfl rfl (fun i g hi => ?_)
        rw [hqueue] at hi
        exact (List.mem_cons.mp hi).resolve_left (fun heq => hne i g heq.symm)
      cases post with
      | expire session generation =>
        change generation = s.channel.generation at hpost
        subst hpost
        exact hst.onExpire_calm hopened
      | write handler =>
        have hset := hrest (fun i g heq => by cases heq)
        cases handler with
        | enqueue item generation =>
          change generation = s.channel.generation at hpost
          subst hpost
          exact hst.onWrite_calm hset hclosed
        | tryEnqueue item generation =>
          change generation = s.channel.generation at hpost
          subst hpost
          unfold runPost
          dsimp only
          split_ifs with hsome
          · exact hst.onTryWriteTo_calm hset hclosed
          · exact hst.onTryWrite_calm hset hclosed (by simpa using hsome)
        | oversized generation =>
          change generation = s.channel.generation at hpost
          subst hpost
          refine .inl ?_
          unfold runPost onOversized
          dsimp only
          rw [if_neg (by simp [hr.stopRequested])]
          exact hst.metered.running.transitionToError_terminal
  | sent failed written script =>
    cases hsending : s.channel.sending with
    | nil =>
      simp only [step, hsending]
      exact .inr hset
    | cons item rest =>
      simp only [step, hsending]
      have htake : Path cfg (s,.empty) ({ s with channel.sending := rest, script := script },.sent item) :=
        (Move.takeSent s item rest hsending).path.trans (Grow.turn _ script).growth.path
      exact (hs.path htake).onSent_calm hset.opened failed written

theorem run_calm (cfg : Config) (generation : ℕ) (remote : Option Endpoint) (ops : List StepOp) :
    ((opened generation remote : Strand N).run cfg ops).Calm cfg := by
  have hrun : ∀ s : Strand N, s.Sound cfg .empty → s.Calm cfg → (s.run cfg ops).Calm cfg := by
    induction ops with
    | nil => exact fun _ _ => id
    | cons op ops ih =>
      intro s hs hcalm
      have hstep : Path cfg _ _ := step_path hs.metered.running hs.metered.phase op
      exact ih _ (hs.path hstep) (step_calm hs hcalm op)
  exact hrun _ (opened_sound cfg generation remote) (.inr ⟨rfl,fun h => absurd rfl h,nofun⟩)

/-- A channel that has not ended and has nothing on its strand and at its socket is drained:
the queues and counters are empty, pressure is off, and every datagram that was ever
accepted went to the socket, except those of expired sessions. -/
theorem run_drained (cfg : Config) (generation : ℕ) (remote : Option Endpoint) (ops : List StepOp)
    (hopen : ((opened generation remote : Strand N).run cfg ops).channel.state.terminal = false)
    (hqueue : ((opened generation remote : Strand N).run cfg ops).queue = [])
    (hsending : ((opened generation remote : Strand N).run cfg ops).channel.sending = []) :
    let s : Strand N := (opened generation remote).run cfg ops
    s.channel.tx = [] ∧ s.channel.pending = [] ∧ s.channel.backpressureActive = false ∧
    s.channel.counters = .zero ∧
    ∀ item ∈ admissions s.events,
      item ∈ handovers s.events ∨ ∃ i, item.session = some i ∧ .expired i ∈ s.events := by
  have hs := run_sound (N := N) cfg generation remote ops
  have hset := (run_calm (N := N) cfg generation remote ops).resolve_left (by simp [hopen])
  dsimp only
  generalize (opened generation remote : Strand N).run cfg ops = s at *
  have hidle : s.writing = false := by
    by_contra hbusy
    exact hs.metered.phase.1.mp (by simpa using hbusy) hsending
  have htx : s.channel.tx = [] := by
    by_contra hne
    rw [hset.sending hne] at hidle
    cases hidle
  have hcounted := hs.metered.counted hopen
  have hbytes : s.channel.counters.queueBytes = 0 := by
    rw [hcounted.queue]
    simp [held, htx, hsending, hqueue, tries, Hand.counted]
  have hactive : s.channel.backpressureActive = false := by
    by_contra hon
    rcases hset.pressure (by simpa using hon) with hhigh | hbusy | ⟨i,g,hpost⟩
    · omega
    · rw [hidle] at hbusy
      cases hbusy
    · rw [hqueue] at hpost
      cases hpost
  obtain ⟨kind,ho⟩ := hs.ordered
  have hpending : s.channel.pending = [] := by
    by_contra hne
    rw [ho.pressure hne] at hactive
    cases hactive
  refine ⟨htx,hpending,hactive,?_,fun item hi => ?_⟩
  · have hparked := hcounted.pending
    have hinflight := hs.metered.bounded.inflight
    simp only [hpending, hqueue, plains, Hand.reserved, List.filterMap_nil, bytes_nil] at hparked hinflight
    cases hc : s.channel.counters
    simp_all [Counters.zero]
  · rcases hs.tracked.delivered hset.opened item hi with hwait | hdone
    · simp [waiting, htx, hpending, hqueue, posted, Hand.front, Hand.back] at hwait
    · exact hdone

/-- Two datagrams, one of a session that expires while the other is at the socket. -/
def sampleOps : List StepOp :=
  [.call (.captureWriteWait false true),
    .call (.write [1,2] none (.copy true)),
    .call (.write [3] none (.writeTo ⟨2,9000⟩ (some 0) true)),
    .handler ⟨[],false⟩,
    .handler ⟨[],false⟩,
    .call (.expireSession 0),
    .handler ⟨[],false⟩,
    .sent false 2 ⟨[],false⟩]

theorem run_drained_sample :
    let s : Strand ℤ := (opened 1 (some ⟨1,9000⟩)).run Channel.sampleConfig sampleOps
    s.channel.tx = [] ∧ s.channel.pending = [] ∧ s.channel.backpressureActive = false ∧
    s.channel.counters = .zero ∧
    ∀ item ∈ admissions s.events,
      item ∈ handovers s.events ∨ ∃ i, item.session = some i ∧ .expired i ∈ s.events :=
  run_drained Channel.sampleConfig 1 (some ⟨1,9000⟩) sampleOps (by decide +kernel) (by decide +kernel)
    (by decide +kernel)

end Strand
end Wirestead.Transport.UdpChannel
