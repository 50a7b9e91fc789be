import Wirestead.Transport.ServerSession.Draining

/-! # What is left of a session that closes

As long as the session is open its ledger knows exactly the writes that are queued or at
the socket; when it is closing no request is live and no caller waits. After `on_close`, or
after the handler of `async_stop`, nothing more is shown to the user.
-/
namespace Wirestead.Transport.ServerSession
open Diagnostics Sizes TcpClient
namespace Session
variable {N : Type*} {cfg : Config} {s t : Session N} {h k : Hand}

/-- The requests of the writes that the session holds. -/
def live (s : Session N) (h : Hand) : List ℕ :=
  (s.currentWriteBatch ++ s.tx ++ s.pending ++ h.back ++ posted s.queue).map TrackedBuffer.request

/-- The ledger agrees with the queues. -/
structure Agreed (s : Session N) (h : Hand) : Prop where
  distinct : s.closing = false → (s.live h).Nodup
  held : s.closing = false → ∀ id, s.ledger.contains id = true ↔ id ∈ s.live h
  gone : s.closing = true → ∀ id, s.ledger.contains id = false

/-- Writes only change hands. -/
theorem Agreed.relay (ha : s.Agreed h) (hlive : (t.live k).Perm (s.live h)) (hclosing : t.closing = s.closing)
    (hledger : ∀ id, t.ledger.contains id = s.ledger.contains id) : t.Agreed k where
  distinct := fun ht => hlive.nodup_iff.mpr (ha.distinct (hclosing.symm.trans ht))
  held := fun ht id => by
    rw [hledger, hlive.mem_iff]
    exact ha.held (hclosing.symm.trans ht) id
  gone := fun ht id => (hledger id).trans (ha.gone (hclosing.symm.trans ht) id)

variable [CommRing N]

omit [CommRing N] in
theorem Agreed.dead (hc : t.closing = true) (hgone : ∀ id, t.ledger.contains id = false) : t.Agreed k where
  distinct := fun ht => by simp [hc] at ht
  held := fun ht => by simp [hc] at ht
  gone := fun _ => hgone

theorem Agreed.grow (hv : s.ledger.Valid) (ha : s.Agreed h) (g : Grow cfg s t) : t.Agreed h := by
  cases g with
  | accept data plain counters hopen =>
    have hc := (isOpen_iff.mp hopen).2
    obtain ⟨-,-,-,hcontains⟩ := hv.admitRequest_live data.length none
    have hlive : (s.accept data counters plain).1.live h = s.live h ++ [s.ledger.nextId + 1] := by
      rw [accept_eq]
      cases plain <;> simp [live, Post.hand, Hand.back, newItem]
    have hnew : s.ledger.nextId + 1 ∉ s.live h := by
      intro hmem
      have hle := hv.live_le ((ha.held hc _).mpr hmem)
      omega
    refine ⟨fun _ => ?_,fun _ id => ?_,fun ht => ?_⟩
    · rw [hlive]
      exact List.nodup_append.mpr ⟨ha.distinct hc,List.nodup_singleton _,fun a hmem b hb heq => by
        rw [List.mem_singleton.mp hb] at heq
        exact hnew (heq ▸ hmem)⟩
    · rw [hlive, List.mem_append, List.mem_singleton, ← ha.held hc]
      exact hcontains id
    · rw [accept_eq] at ht
      rw [show s.closing = true from ht] at hc
      cases hc
  | wake | set | aside => exact ha.relay (.refl _) rfl (fun _ => rfl)
  | reset => exact ha.relay (.refl _) rfl (fun _ => rfl)
  | endWait =>
    rw [endWait_eq]
    exact ha.relay (.refl _) rfl (fun _ => rfl)
  | halt =>
    rw [endWait_eq]
    exact .dead rfl (Ledger.contains_endAll _)
  | post post hhand => exact ha.relay (by simp [Session.post, live, hhand, Hand.back]) rfl (fun _ => rfl)
  | complete => exact ha.relay (by simp [Session.post, live, Post.hand, Hand.back]) rfl (fun _ => rfl)

/-- A handler moves writes from queue to queue; those it completes are settled. -/
theorem Agreed.move (hm : s.Metered cfg h) (hv : s.ledger.Valid) (ha : s.Agreed h) (m : Move cfg (s,h) (t,k)) :
    t.Agreed k := by
  have hclosed : s.closing = true → t.closing = true → t.Agreed k := by
    intro hs ht
    refine .dead ht (fun id => ?_)
    rcases m.ledger hv with hr | ⟨hopen,-⟩
    · by_contra hlive
      have hold := hr.live id (by simpa using hlive)
      rw [ha.gone hs] at hold
      cases hold
    · rw [(isOpen_iff.mp hopen).2] at hs
      cases hs
  cases m with
  | grow s t h g => exact ha.grow hv g
  | take s post rest hqueue =>
    refine ha.relay ?_ rfl (fun _ => rfl)
    have hempty : Hand.empty.back = [] := rfl
    simp [live, hqueue, posted_cons, hempty]
  | emit | dropCallbacks | activate | handOver | release | rest | leave => exact ha.relay (.refl _) rfl (fun _ => rfl)
  | forget s item hc | forgetTried s item hc | ignore s bytesToWrite hc => exact hclosed hc hc
  | refuse s item hfull => exact absurd hfull hm.bounded.not_refused
  | park => exact ha.relay (by simp [live, Hand.back]) rfl (fun _ => rfl)
  | relieve =>
    rw [relieved_eq]
    exact ha.relay (by simp [live]) rfl (fun _ => rfl)
  | enqueue | enqueueTried =>
    refine ha.relay (List.perm_iff_count.mpr (fun id => ?_)) rfl (fun _ => rfl)
    simp only [live, Hand.back, List.map_append, List.count_append, List.map_nil, List.count_nil]
    omega
  | begin s hopen htx hwriting =>
    have hidle : s.currentWriteBatch = [] := by
      rcases hm.phase (isOpen_iff.mp hopen).2 with ⟨-,-,hidle⟩ | ⟨hbusy,-⟩
      · exact hidle
      · rw [hwriting] at hbusy
        cases hbusy
    refine ha.relay ?_ rfl (fun id => hv.contains_beginBatch _ id)
    have htake := (takeGatherBatch_append s.tx).1
    simp only [live, begun, hidle, List.nil_append]
    rw [htake]
    exact .refl _
  | confirm s bytesToWrite confirmed hopen =>
    have hc : s.closing = false := (isOpen_iff.mp hopen).2
    have hsplit : s.live (.sent bytesToWrite) =
        s.currentWriteBatch.map TrackedBuffer.request ++
          (s.settled confirmed).live (.confirmed s.currentWriteBatch) := by
      simp [live, settled, Hand.back]
    have hdistinct := ha.distinct hc
    rw [hsplit] at hdistinct
    obtain ⟨-,hrest,hapart⟩ := List.nodup_append.mp hdistinct
    obtain ⟨hvalid,-,hrequest⟩ := hv.completeBatch_request
      (s.currentWriteBatch.map (fun item => (item.request,item.size))) confirmed
    refine ⟨fun _ => hrest,fun _ id => ?_,fun ht => by simp [settled, hc] at ht⟩
    have hids : (s.currentWriteBatch.map (fun item => (item.request,item.size))).map Prod.fst =
        s.currentWriteBatch.map TrackedBuffer.request := List.map_map
    have hcontains : (s.settled confirmed).ledger.contains id =
        (if id ∈ s.currentWriteBatch.map TrackedBuffer.request then none else s.ledger.request? id).isSome := by
      rw [← hids, ← hrequest]
      exact hvalid.contains_request id
    have hold := ha.held hc id
    rw [hsplit, List.mem_append] at hold
    rw [hcontains]
    by_cases hbatch : id ∈ s.currentWriteBatch.map TrackedBuffer.request
    · have hnot : id ∉ (s.settled confirmed).live (.confirmed s.currentWriteBatch) :=
        fun hmem => hapart id hbatch id hmem rfl
      simpa [hbatch] using hnot
    · rw [if_neg hbatch, ← hv.contains_request, hold]
      exact or_iff_right hbatch
  | throwing =>
    rw [lost_eq]
    exact .dead rfl (Ledger.contains_endAll _)
  | fail =>
    rw [lost_eq]
    exact .dead rfl (Ledger.contains_endAll _)
  | shut =>
    rw [shut_eq]
    exact .dead rfl (Ledger.contains_endAll _)

/-- The callbacks are gone, and no handler is about to tell the user that the session closed. -/
structure Over (s : Session N) (h : Hand) : Prop where
  cleanupDone : s.cleanupDone = true
  silent : ∀ c, s.callbacks c = false
  hand : h ≠ .leaving true

/-- What the user has heard last, and what a handler may still say. -/
structure Final (s : Session N) (h : Hand) : Prop where
  leaving : ∀ announce, h = .leaving announce → s.cleanupDone = true
  batch : ∀ buffers, h = .batch buffers → s.cleanupDone = false
  ended : ∀ e ∈ s.events, e = .closed ∨ e = .stopped → s.Over h
  last : s.events.Pairwise (fun e e' => e = .closed ∨ e = .stopped → e' = .stopped)

omit [CommRing N] in
/-- Nothing is said. -/
theorem Final.hush (hf : s.Final h) (hevents : t.events = s.events) (hclean : t.cleanupDone = s.cleanupDone)
    (hleaving : ∀ announce, k = .leaving announce → h = .leaving announce)
    (hbatch : ∀ buffers, k = .batch buffers → t.cleanupDone = false)
    (hsilent : s.Over h → ∀ c, t.callbacks c = false) : t.Final k where
  leaving := fun announce hk => hclean.trans (hf.leaving announce (hleaving announce hk))
  batch := hbatch
  ended := by
    rw [hevents]
    intro e he hlast
    have hover := hf.ended e he hlast
    exact ⟨hclean.trans hover.cleanupDone,hsilent hover,fun hk => hover.hand (hleaving true hk)⟩
  last := by
    rw [hevents]
    exact hf.last

omit [CommRing N] in
/-- One more event, after which there may be nothing but the end. -/
theorem Final.say (hf : s.Final h) (event : Event) (hevents : t.events = s.events ++ [event])
    (hleaving : ∀ announce, k = .leaving announce → t.cleanupDone = true)
    (hbatch : ∀ buffers, k = .batch buffers → t.cleanupDone = false) (hquiet : s.Over h → event = .stopped)
    (hover : s.Over h ∨ event = .closed ∨ event = .stopped → t.Over k) : t.Final k where
  leaving := hleaving
  batch := hbatch
  ended := by
    rw [hevents]
    intro e he hlast
    rcases List.mem_append.mp he with he | he
    · exact hover (.inl (hf.ended e he hlast))
    · rw [List.mem_singleton.mp he] at hlast
      exact hover (.inr hlast)
  last := by
    rw [hevents]
    refine List.pairwise_append.mpr ⟨hf.last,List.pairwise_singleton _ _,fun e he e' he' hlast => ?_⟩
    rw [List.mem_singleton.mp he']
    exact hquiet (hf.ended e he hlast)

omit [CommRing N] in
theorem Over.closed (ho : s.Over h) (hr : s.Running h) : s.isOpen = false := by
  by_contra hopen
  have hclean := hr.clean (by simpa using hopen)
  rw [ho.cleanupDone] at hclean
  cases hclean

theorem Final.move (hr : s.Running h) (hf : s.Final h) (m : Move cfg (s,h) (t,k)) : t.Final k := by
  have hclosed : ∀ {P : Prop}, s.isOpen = true → s.Over h → P := by
    intro P hopen ho
    rw [ho.closed hr] at hopen
    cases hopen
  cases m with
  | grow s t h g =>
    cases g with
    | accept data plain counters hopen =>
      rw [accept_eq]
      refine hf.say _ rfl hf.leaving hf.batch (hclosed hopen) (fun ho => ?_)
      exact hclosed hopen (ho.resolve_right (by simp))
    | wake | reset | post | complete | aside => exact hf.hush rfl rfl (fun _ => id) hf.batch Over.silent
    | halt | endWait =>
      rw [endWait_eq]
      exact hf.hush rfl rfl (fun _ => id) hf.batch Over.silent
    | set callbacks hopen =>
      refine hf.hush rfl rfl (fun _ => id) hf.batch (fun ho => ?_)
      have hclosing := hr.cleaned ho.cleanupDone
      rw [hopen] at hclosing
      cases hclosing
  | take s post =>
    refine hf.hush rfl rfl (fun announce hk => ?_) (fun buffers hk => ?_) Over.silent
    · cases post <;> cases hk
    · cases post <;> cases hk
  | emit s h event hshows =>
    refine hf.say event rfl hf.leaving hf.batch (fun ho => ?_) (fun ho => ?_)
    · cases event with
      | connected => exact hclosed hshows ho
      | bytes =>
        have hset : s.callbacks .bytes = true := hshows
        rw [ho.silent] at hset
        cases hset
      | backpressure =>
        have hset : s.callbacks .backpressure = true := hshows
        rw [ho.silent] at hset
        cases hset
      | stopped => rfl
      | accepted | handed | closed => exact hshows.elim
    · rcases ho with ho | rfl | rfl
      · exact ⟨ho.cleanupDone,ho.silent,ho.hand⟩
      · exact hshows.elim
      · obtain ⟨rfl,hclean,hnone⟩ := hshows
        exact ⟨hclean,hnone,by simp⟩
  | dropCallbacks => exact hf.hush rfl rfl (fun _ => id) hf.batch (fun _ _ => rfl)
  | activate => exact hf.hush rfl rfl (fun _ => id) hf.batch Over.silent
  | relieve =>
    rw [relieved_eq]
    exact hf.hush rfl rfl (fun _ => id) hf.batch Over.silent
  | forget | forgetTried | ignore | refuse | park | enqueue | enqueueTried | confirm | release | rest =>
    exact hf.hush rfl rfl (by simp) (by simp) Over.silent
  | begin s hopen => exact hf.hush rfl rfl (by simp) (fun _ _ => hr.clean hopen) Over.silent
  | handOver s buffers hbatch =>
    have hnot : ¬ s.Over (.batch buffers) := fun ho => by
      have hclean := hf.batch buffers rfl
      rw [ho.cleanupDone] at hclean
      cases hclean
    exact hf.say _ rfl (by simp) (by simp) (fun ho => absurd ho hnot) (fun ho => absurd ho (by simp [hnot]))
  | throwing | fail =>
    rw [lost_eq]
    exact hf.hush rfl rfl (by simp) (by simp) Over.silent
  | shut s hclean =>
    have hnone : ∀ e ∈ s.events, ¬ (e = .closed ∨ e = .stopped) := fun e he hlast => by
      have hdone := (hf.ended e he hlast).cleanupDone
      rw [hclean] at hdone
      cases hdone
    rw [shut_eq]
    exact ⟨fun _ _ => rfl,by simp,fun e he hlast => absurd hlast (hnone e he),hf.last⟩
  | leave s announce hnone =>
    have hclean := hf.leaving announce rfl
    cases announce with
    | true =>
      exact hf.say .closed rfl (by simp) (by simp) (fun ho => absurd rfl ho.hand) (fun _ => ⟨hclean,hnone,by simp⟩)
    | false => exact hf.hush (List.append_nil _) rfl (by simp) (by simp) Over.silent

/-- What `do_close` has emptied stays empty. -/
structure Emptied (s : Session N) : Prop where
  tx : s.tx = []
  pending : s.pending = []
  active : s.backpressureActive = false
  queueBytes : s.counters.queueBytes = 0
  pendingBytes : s.counters.pendingBytes = 0

theorem Emptied.move (hr : s.Running h) (he : s.cleanupDone = true → s.Emptied) (m : Move cfg (s,h) (t,k))
    (hdone : t.cleanupDone = true) : t.Emptied := by
  have hopen : ∀ {P : Prop}, s.cleanupDone = true → s.isOpen = true → P := by
    intro P hd ho
    rw [hr.clean ho] at hd
    cases hd
  cases m with
  | grow s t h g =>
    have hd := g.kept.cleanupDone.symm.trans hdone
    obtain ⟨htx,hpending,hactive,hqueue,hparked⟩ := he hd
    cases g with
    | accept data plain counters ho => exact hopen hd ho
    | wake | reset | post | complete | set | aside => exact ⟨htx,hpending,hactive,hqueue,hparked⟩
    | halt | endWait =>
      rw [endWait_eq]
      exact ⟨htx,hpending,hactive,hqueue,hparked⟩
  | take | emit | dropCallbacks | handOver | ignore | confirm | rest | leave =>
    exact ⟨(he hdone).tx,(he hdone).pending,(he hdone).active,(he hdone).queueBytes,(he hdone).pendingBytes⟩
  | throwing | fail =>
    rw [lost_eq] at hdone ⊢
    exact ⟨(he hdone).tx,(he hdone).pending,(he hdone).active,(he hdone).queueBytes,(he hdone).pendingBytes⟩
  | forget | refuse =>
    obtain ⟨htx,hpending,hactive,hqueue,hparked⟩ := he hdone
    rw [releaseReservedLimitBytes, release_eq]
    exact ⟨htx,hpending,hactive,hqueue,hparked⟩
  | forgetTried s item | release s buffers =>
    obtain ⟨htx,hpending,hactive,hqueue,hparked⟩ := he hdone
    rw [releaseReservedWriteBytes, release_eq]
    exact ⟨htx,hpending,hactive,by simp [hqueue],hparked⟩
  | park s item hclean | enqueue s item hclean | enqueueTried s item hclean =>
    rw [show s.cleanupDone = true from hdone] at hclean
    cases hclean
  | activate s h hhigh =>
    have hge := cfg.threshold_ge
    rcases hhigh with hhigh | ho
    · rw [(he hdone).queueBytes] at hhigh
      unfold TcpServer.Config.bpHigh at hhigh
      omega
    · exact hopen hdone ho
  | relieve s h hactive =>
    rw [relieved_eq] at hdone
    rw [(he hdone).active] at hactive
    cases hactive
  | begin s ho => exact hopen hdone ho
  | shut =>
    rw [shut_eq]
    exact ⟨rfl,rfl,rfl,rfl,rfl⟩

omit [CommRing N] in
/-- All that holds between two moves. -/
structure Sealed (cfg : Config) (s : Session N) (h : Hand) : Prop where
  sound : s.Sound cfg h
  agreed : s.Agreed h
  final : s.Final h
  emptied : s.cleanupDone = true → s.Emptied

theorem Sealed.move (hs : s.Sealed cfg h) (m : Move cfg (s,h) (t,k)) : t.Sealed cfg k where
  sound := hs.sound.move m
  agreed := hs.agreed.move hs.sound.metered hs.sound.valid m
  final := hs.final.move hs.sound.metered.running m
  emptied := Emptied.move hs.sound.metered.running hs.emptied m

theorem new_sealed (cfg : Config) : (new : Session N).Sealed cfg .empty where
  sound := new_sound cfg
  agreed := by
    have hnone : ∀ id, (Ledger.new : Ledger N).contains id = false := fun id => by
      simp [Ledger.contains, Ledger.new, Slots.Window.empty]
    exact ⟨fun _ => .nil,fun _ id => by simp [new, live, posted, Hand.back, hnone],fun hc => by cases hc⟩
  final := ⟨by simp,by simp,by simp [new],.nil⟩
  emptied := fun hdone => by cases hdone

theorem run_sealed (cfg : Config) (ops : List StepOp) : ((new : Session N).run cfg ops).Sealed cfg .empty :=
  Path.induct (I := fun p => p.1.Sealed cfg p.2) (fun _ _ hp m => hp.move m) (new_sealed cfg) (run_path ops)

/-- In every run the ledger and the queues agree: a request is outstanding exactly while the
session is open and holds the write, at the socket, in a queue or on the strand. -/
theorem run_ledger_agrees (cfg : Config) (ops : List StepOp) :
    let s : Session N := new.run cfg ops
    ∀ id, s.ledger.contains id = true ↔ s.closing = false ∧
      ∃ item ∈ s.currentWriteBatch ++ s.tx ++ s.pending ++ posted s.queue, item.request = id := by
  intro s id
  have ha : s.Agreed .empty := (run_sealed cfg ops).agreed
  cases hc : s.closing with
  | true => simp [ha.gone hc id]
  | false =>
    rw [ha.held hc id, live, List.mem_map]
    simp [Hand.back]

/-- After `on_close`, or after the handler of `async_stop`, nothing is accepted, written,
received or reported; only further handlers of `async_stop` are acknowledged. -/
theorem run_closed_final (cfg : Config) (ops : List StepOp) :
    (run cfg (new : Session N) ops).events.Pairwise (fun e e' => e = .closed ∨ e = .stopped → e' = .stopped) :=
  (run_sealed cfg ops).final.last

omit [CommRing N] in
/-- What a session that closes still shows. -/
structure Ceased (s t : Session N) (h : Hand) : Prop where
  closing : t.closing = true
  front : h.front = []
  requests : requests t.events = requests s.events
  handovers : handovers t.events = handovers s.events
  waitEndedBy : s.waitEndedBy.isSome = true → t.waitEndedBy = s.waitEndedBy

theorem Ceased.move {u : Session N} (hx : Ceased s t h) (m : Move cfg (t,h) (u,k)) : Ceased s u k := by
  obtain ⟨hc,hfront,hrequests,hhandovers,hwait⟩ := hx
  have hlatch : ∀ reason : SendRejection, s.waitEndedBy.isSome = true →
      t.waitEndedBy.or (some reason) = s.waitEndedBy := by
    intro reason hsome
    rw [hwait hsome]
    obtain ⟨r,hr⟩ := Option.isSome_iff_exists.mp hsome
    rw [hr, Option.some_or]
  have hopen : ∀ {P : Prop}, t.isOpen = true → P := by
    intro P ho
    rw [(isOpen_iff.mp ho).2] at hc
    cases hc
  cases m with
  | grow s t h g =>
    cases g with
    | accept data plain counters ho => exact hopen ho
    | wake | reset | post | complete | set | aside => exact ⟨hc,hfront,hrequests,hhandovers,hwait⟩
    | halt =>
      rw [endWait_eq]
      exact ⟨rfl,hfront,hrequests,hhandovers,hlatch _⟩
    | endWait =>
      rw [endWait_eq]
      exact ⟨hc,hfront,hrequests,hhandovers,hlatch _⟩
  | take s post => exact ⟨hc,post.hand_front,hrequests,hhandovers,hwait⟩
  | emit s h event hshows =>
    have hquiet : ServerSession.requests [event] = [] ∧ ServerSession.handovers [event] = [] := by
      cases event <;> first | exact ⟨rfl,rfl⟩ | exact hshows.elim
    exact ⟨hc,hfront,by simp [Session.emit, hrequests, hquiet.1],by simp [Session.emit, hhandovers, hquiet.2],hwait⟩
  | leave s announce =>
    have hquiet : ServerSession.requests (if announce then [Event.closed] else []) = [] ∧
        ServerSession.handovers (if announce then [Event.closed] else []) = [] := by
      cases announce <;> exact ⟨rfl,rfl⟩
    exact ⟨hc,rfl,by simp [hrequests, hquiet.1],by simp [hhandovers, hquiet.2],hwait⟩
  | dropCallbacks | activate => exact ⟨hc,hfront,hrequests,hhandovers,hwait⟩
  | relieve =>
    rw [relieved_eq]
    exact ⟨hc,hfront,hrequests,hhandovers,hwait⟩
  | forget | forgetTried | refuse | park | enqueue | enqueueTried | ignore | confirm | release | rest =>
    exact ⟨hc,rfl,hrequests,hhandovers,hwait⟩
  | begin s ho => exact hopen ho
  | handOver s buffers =>
    have hnil : buffers = [] := hfront
    have hquiet : ServerSession.requests [Event.handed []] = [] ∧
        ServerSession.handovers [Event.handed []] = [] := ⟨rfl,rfl⟩
    subst hnil
    exact ⟨hc,rfl,by simp [hrequests, hquiet.1],by simp [hhandovers, hquiet.2],hwait⟩
  | throwing | fail =>
    rw [lost_eq]
    exact ⟨rfl,rfl,hrequests,hhandovers,hlatch _⟩
  | shut =>
    rw [shut_eq]
    exact ⟨rfl,rfl,hrequests,hhandovers,hlatch _⟩

/-- No entry takes a write of a session that is closing. -/
theorem write_refused (hc : s.closing = true) (data : List UInt8) (entry : Entry) :
    ∃ reason, s.write cfg data entry = (s,.reject reason) := by
  have hclosed : s.isOpen = false := by simp [isOpen, hc]
  have hrefusal : s.refusal data = some .notReady := if_pos hclosed
  have hplain : s.reservePlain cfg data = (s,.reject .notReady) := by simp only [reservePlain, hrefusal]
  have htry : s.reserveTry cfg data = (s,.reject .notReady) := by simp only [reserveTry, hrefusal]
  cases entry with
  | copy | move | shared => exact ⟨_,hplain⟩
  | tryMove | tryShared => exact ⟨_,htry⟩
  | tryCopy =>
    have hcopy : s.write cfg data .tryCopy = s.tryWriteCopy cfg data := rfl
    rw [hcopy, tryWriteCopy, tryWriteMove, htry]
    split_ifs <;> exact ⟨_,rfl⟩

/-- A session that is closing accepts nothing more and hands nothing more to its socket, no
request is live, and whoever waits for room is told the same reason, once and for all. -/
theorem run_closing_final (cfg : Config) (ops more : List StepOp) :
    let s : Session N := new.run cfg ops
    let t := s.run cfg more
    s.closing = true →
      t.closing = true ∧ requests t.events = requests s.events ∧ handovers t.events = handovers s.events ∧
      (∀ id, t.ledger.contains id = false) ∧
      (∃ reason, t.pollWriteWait = some (.reject reason) ∧ s.pollWriteWait = some (.reject reason)) ∧
      ∀ data entry, ∃ reason, t.write cfg data entry = (t,.reject reason) := by
  intro s t hc
  have hs : s.Sealed cfg .empty := run_sealed cfg ops
  have hpath : Path cfg (s,.empty) (t,.empty) :=
    run_path_from hs.sound.metered.running hs.sound.metered.phase more
  have ht : t.Sealed cfg .empty := Path.induct (I := fun p => p.1.Sealed cfg p.2) (fun _ _ hp m => hp.move m) hs hpath
  have hceased : Ceased s t .empty :=
    Path.induct (I := fun p => Ceased s p.1 p.2) (fun _ _ hp m => hp.move m) ⟨hc,rfl,rfl,rfl,fun _ => rfl⟩ hpath
  obtain ⟨reason,hreason⟩ := Option.isSome_iff_exists.mp (hs.sound.metered.running.waits hc)
  have hlatched : t.waitEndedBy = some reason := (hceased.waitEndedBy (by simp [hreason])).trans hreason
  exact ⟨hceased.closing,hceased.requests,hceased.handovers,ht.agreed.gone hceased.closing,
    ⟨reason,by simp only [pollWriteWait, hlatched],by simp only [pollWriteWait, hreason]⟩,write_refused hceased.closing⟩

/-- A session that has cleaned up holds nothing but the reservations of plain writes whose
handlers have not run. -/
theorem run_cleaned (cfg : Config) (ops : List StepOp) :
    let s : Session N := new.run cfg ops
    s.cleanupDone = true →
      s.tx = [] ∧ s.pending = [] ∧ s.backpressureActive = false ∧
      s.counters = ⟨0,0,totalBytes (plains s.queue)⟩ := by
  intro s hdone
  have hs : s.Sealed cfg .empty := run_sealed cfg ops
  obtain ⟨htx,hpending,hactive,hqueue,hparked⟩ := hs.emptied hdone
  have hinflight := hs.sound.metered.bounded.inflight
  refine ⟨htx,hpending,hactive,?_⟩
  cases hcounters : s.counters
  simp_all [Hand.reserved]

/-- A session that is stopped with a write at its socket and another one on its strand. -/
def stoppedOps : List StepOp :=
  [.call .start,.call (.setCallback .close true true),.handler ⟨[],false,false,false⟩,
    .call (.write [1,2] .copy),.handler ⟨[],false,false,false⟩,
    .call (.write [3] .copy),.call .asyncStop]

def laterOps : List StepOp :=
  [.call (.writeDone false 2),.handler ⟨[],false,false,false⟩,.handler ⟨[],false,false,false⟩,
    .handler ⟨[],false,false,false⟩]

theorem run_closing_final_sample :
    let s : Session ℤ := new.run sampleConfig stoppedOps
    let t := s.run sampleConfig laterOps
    t.closing = true ∧ requests t.events = requests s.events ∧ handovers t.events = handovers s.events ∧
    (∀ id, t.ledger.contains id = false) ∧
    (∃ reason, t.pollWriteWait = some (.reject reason) ∧ s.pollWriteWait = some (.reject reason)) ∧
    ∀ data entry, ∃ reason, t.write sampleConfig data entry = (t,.reject reason) :=
  run_closing_final sampleConfig stoppedOps laterOps (by decide +kernel)

theorem run_cleaned_sample :
    let s : Session ℤ := new.run sampleConfig (stoppedOps ++ laterOps)
    s.tx = [] ∧ s.pending = [] ∧ s.backpressureActive = false ∧ s.counters = ⟨0,0,totalBytes (plains s.queue)⟩ :=
  run_cleaned sampleConfig (stoppedOps ++ laterOps) (by decide +kernel)

end Session
end Wirestead.Transport.ServerSession
