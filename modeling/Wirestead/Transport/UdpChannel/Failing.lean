import Wirestead.Transport.UdpChannel.Draining

/-! # A UDP channel that has failed

The first failure ends every request and every wait. Once the state is an error nothing is
queued any more, and what is still on the strand only gives its bytes back.
-/
namespace Wirestead.Transport.UdpChannel
open Diagnostics Sizes TcpClient

/-- Nobody waits on the channel any more. -/
def Lost (waits : List UdpWriteWait) : Prop := ∀ w ∈ waits, w.endedBy.isSome = true

theorem UdpWriteWait.end_isSome (w : UdpWriteWait) (reason : SendRejection) : (w.end reason).endedBy.isSome = true := by
  unfold UdpWriteWait.end
  split_ifs with hnone
  · rfl
  · simpa [Option.isSome_iff_ne_none] using hnone

theorem lost_map_end (waits : List UdpWriteWait) (reason : SendRejection) : Lost (waits.map (·.end reason)) := by
  intro w hw
  obtain ⟨v,-,rfl⟩ := List.mem_map.mp hw
  exact v.end_isSome reason

theorem Follows.lost {waits waits' : List UdpWriteWait} (hf : Follows waits waits') (hl : Lost waits) : Lost waits' := by
  intro w' hw'
  obtain ⟨i,hi,rfl⟩ := List.getElem_of_mem hw'
  have hi' : i < waits.length := by
    rw [← hf.length]
    exact hi
  exact hf.ended i _ _ (List.getElem?_eq_getElem hi') (List.getElem?_eq_getElem hi) (hl _ (List.getElem_mem hi'))

namespace Strand
variable {N : Type*} {cfg : Config} {s t : Strand N} {h k : Hand}

/-- What a failure leaves, and nothing brings back. -/
structure Shut (s : Strand N) (h : Hand) : Prop where
  requests : s.channel.opened = false → ∀ id, s.channel.ledger.request? id = none
  waits : s.channel.opened = false → Lost s.channel.writeWaits
  tx : s.channel.state.terminal = true → s.channel.tx = []
  pending : s.channel.state.terminal = true → s.channel.pending = []
  pressure : s.channel.state.terminal = true → s.channel.backpressureActive = false
  counters : s.channel.state.terminal = true →
    s.channel.counters.queueBytes = 0 ∧ s.channel.counters.pendingBytes = 0
  hand : ∀ item, h = .current item → s.channel.state.terminal = false

/-- A step that touches neither the requests nor the waits. -/
theorem Shut.keep (hs : s.Shut h) (hopened : t.channel.opened = s.channel.opened)
    (hstate : t.channel.state = s.channel.state)
    (hrequests : ∀ id, s.channel.ledger.request? id = none → t.channel.ledger.request? id = none)
    (hwaits : Follows s.channel.writeWaits t.channel.writeWaits)
    (htx : s.channel.tx = [] → t.channel.tx = []) (hpending : s.channel.pending = [] → t.channel.pending = [])
    (hactive : s.channel.state.terminal = true → s.channel.backpressureActive = false →
      t.channel.backpressureActive = false)
    (hqueue : s.channel.counters.queueBytes = 0 → t.channel.counters.queueBytes = 0)
    (hparked : s.channel.counters.pendingBytes = 0 → t.channel.counters.pendingBytes = 0)
    (hhand : ∀ item, k = .current item → s.channel.state.terminal = false) : t.Shut k where
  requests := by
    rw [hopened]
    exact fun h id => hrequests id (hs.requests h id)
  waits := by
    rw [hopened]
    exact fun h => hwaits.lost (hs.waits h)
  tx := by
    rw [hstate]
    exact fun h => htx (hs.tx h)
  pending := by
    rw [hstate]
    exact fun h => hpending (hs.pending h)
  pressure := by
    rw [hstate]
    exact fun h => hactive h (hs.pressure h)
  counters := by
    rw [hstate]
    exact fun h => ⟨hqueue (hs.counters h).1,hparked (hs.counters h).2⟩
  hand := by
    rw [hstate]
    exact hhand

/-- While the channel is up its queues may hold anything. -/
theorem Shut.up (hs : s.Shut h) (hup : t.channel.state.terminal = false)
    (hopened : t.channel.opened = s.channel.opened) (hledger : t.channel.ledger = s.channel.ledger)
    (hwaits : Follows s.channel.writeWaits t.channel.writeWaits) : t.Shut k where
  requests := by
    rw [hopened, hledger]
    exact hs.requests
  waits := by
    rw [hopened]
    exact fun h => hwaits.lost (hs.waits h)
  tx := by simp [hup]
  pending := by simp [hup]
  pressure := by simp [hup]
  counters := by simp [hup]
  hand := fun _ _ => hup

/-- Requests end, and none begins. -/
theorem Shut.endRequests (hs : s.Shut h) {ledger : Ledger N}
    (hrequests : ∀ id, s.channel.ledger.request? id = none → ledger.request? id = none) :
    Shut { s with channel.ledger := ledger } h :=
  hs.keep rfl rfl hrequests (.refl _) id id (fun _ => id) id id hs.hand

/-- The bytes of one datagram go back. -/
theorem Shut.dropQueued (hs : s.Shut h) (item : TxItem)
    (hhand : ∀ i, k = .current i → s.channel.state.terminal = false) : (s.dropQueued item).Shut k := by
  rw [dropQueued_eq]
  have hcount := Follows.recount s.channel.writeWaits (fun i q => q - load i [item])
  exact hs.keep rfl rfl (fun _ => id) hcount id id (fun _ => id) (fun hzero => by simp [hzero]) id hhand

variable [CommRing N]

theorem Shut.grow (hr : s.Running) (ht : s.Tracked h) (hs : s.Shut h) (g : Grow cfg s t) : t.Shut h := by
  have hfinal : s.channel.opened = true → s.channel.state.terminal = false := by
    intro hopen
    by_contra hend
    rw [hr.opened (by simpa using hend)] at hopen
    cases hopen
  have hopening : ∀ {u : Strand N}, s.channel.opened = true → u.channel.opened = s.channel.opened →
      u.channel.state = s.channel.state → u.Shut h := by
    intro u hopen hopened hstate
    have hlive := hfinal hopen
    constructor <;> simp_all
  cases g with
  | capture tracked hopen => exact hopening hopen rfl rfl
  | endWaits waits hends =>
    exact hs.keep rfl rfl (fun _ => id) (.ends hends) id id (fun _ => id) id id hs.hand
  | expire session wait group hwait hgroup =>
    rw [expireSession_eq hwait hgroup]
    refine hs.keep rfl rfl (fun id hid => ?_) (.ends (forall₂_modify_end _ _ _)) id id (fun _ => id) id id hs.hand
    obtain ⟨-,-,hreq⟩ := ht.valid.discardWaiting_request group .sessionExpiry
    rw [hreq, hid]
    rfl
  | accept data storage destination session counters hadmits hroom =>
    rw [admitted_eq _ _ _ _ _ _ _ (fun _ _ => rfl)]
    exact hopening hadmits.opened rfl rfl
  | tryAdmit data storage destination session counters hadmits hroom =>
    rw [admitted_eq _ _ _ _ _ _ _ (fun _ _ => rfl), tallyQueued_eq]
    exact hopening hadmits.opened rfl rfl
  | refuseOversized | turn => exact ⟨hs.requests,hs.waits,hs.tx,hs.pending,hs.pressure,hs.counters,hs.hand⟩

/-- An error before its callbacks. -/
theorem ended_shut (hcurrent : ∀ item, h ≠ .current item) : s.ended.Shut h := by
  rw [ended_eq]
  refine ⟨fun _ => ?_,fun _ => ?_,fun _ => rfl,fun _ => rfl,fun _ => rfl,fun _ => ⟨rfl,rfl⟩,fun item hi => ?_⟩
  · exact (Ledger.endAll_request .connectionLoss).2.2
  · exact (Follows.recount _ (fun i q => q - load i s.channel.tx)).lost (lost_map_end _ .notReady)
  · exact absurd hi (hcurrent item)

theorem Shut.move (hm : s.Metered cfg h) (ht : s.Tracked h) (hs : s.Shut h) (m : Move cfg (s,h) (t,k)) : t.Shut k := by
  have hfollows : ∀ f, Follows s.channel.writeWaits (recount s.channel.writeWaits f) := .recount _
  have hsame := Follows.refl s.channel.writeWaits
  have hclosed := hm.running.closed
  cases m with
  | grow s t h g => exact hs.grow hm.running ht g
  | take s post rest hqueue =>
    refine hs.keep rfl rfl (fun _ => id) hsame id id (fun _ => id) id id (fun item hi => ?_)
    have hfront := post.hand_front.1
    rw [hi] at hfront
    cases hfront
  | takeSent => exact hs.keep rfl rfl (fun _ => id) hsame id id (fun _ => id) id id nofun
  | forget => exact hs.keep rfl rfl (fun _ => id) hsame id id (fun _ => id) id id nofun
  | refuse s item hfull => exact absurd hfull hm.bounded.not_refused
  | park s item hopen =>
    rw [hclosed] at hopen
    rw [parkedWith_eq]
    exact hs.up hopen rfl rfl hsame
  | enqueue s item hopen =>
    rw [hclosed] at hopen
    rw [queuedWith_eq]
    exact hs.up hopen rfl rfl (hfollows (fun i q => if item.session = some i then q + item.size else q))
  | enqueueTried s item hopen =>
    rw [hclosed] at hopen
    exact hs.up hopen rfl rfl hsame
  | dropTried s item | dropCurrent s item => exact hs.dropQueued item nofun
  | activate s h hhigh =>
    refine ⟨hs.requests,hs.waits,hs.tx,hs.pending,fun hend => ?_,hs.counters,hs.hand⟩
    have hlow := cfg.bpLow_lt
    rcases hhigh with hhigh | hopen
    · have hzero := (hs.counters hend).1
      omega
    · rw [hclosed, hend] at hopen
      cases hopen
  | relieve s h hactive =>
    have hopen : s.channel.state.terminal = false := by
      by_contra hend
      rw [hs.pressure (by simpa using hend)] at hactive
      cases hactive
    rw [relieved_eq]
    exact hs.up hopen rfl rfl (hfollows (fun i q => q + load i s.channel.pending))
  | dropDead s h item rest htx =>
    have htail : Shut { s with channel.tx := rest } h := by
      refine hs.keep rfl rfl (fun _ => id) hsame (fun hnil => ?_) id (fun _ => id) id id hs.hand
      rw [htx] at hnil
      cases hnil
    exact htail.dropQueued item htail.hand
  | pick s item rest htx =>
    refine hs.keep rfl rfl (fun _ => id) hsame (fun hnil => ?_) id (fun _ => id) id id (fun _ _ => ?_)
    · rw [htx] at hnil
      cases hnil
    · by_contra hend
      rw [hs.tx (by simpa using hend)] at htx
      cases htx
  | dropUnroutable s item =>
    have hdiscarded : Shut { s with channel.ledger := s.channel.ledger.discard item.request .connectionLoss }
        (.current item) := by
      refine hs.endRequests (fun id hid => ?_)
      rw [(ht.valid.discard_request item.request .connectionLoss).2.2]
      split_ifs
      · rfl
      · exact hid
    exact (hdiscarded.dropQueued (k := .empty) item nofun).keep rfl rfl (fun _ => id) (.refl _) id id (fun _ => id) id id
      nofun
  | handOver s item hlive =>
    refine hs.keep rfl rfl (fun id hid => ?_) hsame id id (fun _ => id) id id nofun
    rw [(ht.valid.beginLocked_request item.request).2.2.2]
    split_ifs with heq
    · rw [← heq, hid]
      rfl
    · exact hid
  | throwing => exact ended_shut nofun
  | complete s item written =>
    refine (hs.endRequests (fun id hid => ?_)).dropQueued item nofun
    rw [(ht.valid.completeLocked_request item.request written).2.2]
    split_ifs
    · rfl
    · exact hid
  | fail s item written =>
    rw [dropQueued_eq]
    have hcount : Follows (s.channel.writeWaits.map (·.end .notReady)) _ := .recount _ (fun i q => q - load i [item])
    exact ⟨fun _ => (Ledger.endAll_request .connectionLoss).2.2,fun _ => hcount.lost (lost_map_end _ _),hs.tx,
      hs.pending,hs.pressure,fun hend => ⟨by simp [Channel.failWrites, (hs.counters hend).1],(hs.counters hend).2⟩,
      nofun⟩
  | discard s session =>
    rw [discardSessionQueue_eq]
    have hcount := hfollows (fun i q => q - load i (s.channel.tx.filter (·.session = some session)))
    refine hs.keep rfl rfl (fun _ => id) hcount ?_ ?_ (fun _ => id) ?_ ?_ nofun
    · exact fun hnil => by simp [hnil]
    · exact fun hnil => by simp [hnil]
    · exact fun hzero => by simp [hzero]
    · exact fun hzero => by simp [hzero]
  | error s h hempty => exact ended_shut (fun item hi => by rcases hempty with rfl | rfl <;> cases hi)
  | clear s h hc =>
    rw [hclosed] at hc
    rw [cleared_eq]
    have hcount := hfollows (fun i q => q - load i s.channel.tx)
    exact ⟨hs.requests,fun h => hcount.lost (hs.waits h),fun _ => rfl,fun _ => rfl,fun _ => rfl,fun _ => ⟨rfl,rfl⟩,
      hs.hand⟩
  | rest => exact hs.keep rfl rfl (fun _ => id) hsame id id (fun _ => id) id id nofun

theorem Shut.path {p q : Strand N × Hand} (hp : p.1.Sound cfg p.2) (hs : p.1.Shut p.2) (m : Path cfg p q) :
    q.1.Shut q.2 := by
  induction m with
  | refl => exact hs
  | tail path m ih =>
    have hsound := hp.path path
    exact ih.move hsound.metered hsound.tracked m

/-- After an error the state stays, nothing is admitted and nothing is handed over. -/
structure Silent (s t : Strand N) : Prop where
  state : t.channel.state = s.channel.state
  admissions : admissions t.events = admissions s.events
  handovers : handovers t.events = handovers s.events

omit [CommRing N] in
theorem Silent.trans {u : Strand N} (h : Silent s t) (k : Silent t u) : Silent s u :=
  ⟨k.state.trans h.state,k.admissions.trans h.admissions,k.handovers.trans h.handovers⟩

theorem Shut.silent (hm : s.Metered cfg h) (ht : s.Tracked h) (hs : s.Shut h) (m : Move cfg (s,h) (t,k))
    (hend : s.channel.state.terminal = true) : Silent s t := by
  have hopened := hm.running.opened hend
  cases m with
  | grow s t h g =>
    refine ⟨g.kept.state,?_,?_⟩
    all_goals
      cases g with
      | capture | endWaits | refuseOversized | turn => rfl
      | expire session wait group hwait hgroup =>
        rw [expireSession_eq hwait hgroup]
        simp [UdpChannel.admissions, UdpChannel.handovers, Event.admitted?, Event.handed?]
      | accept data storage destination session counters hadmits hroom =>
        rw [hadmits.opened] at hopened
        cases hopened
      | tryAdmit data storage destination session counters hadmits hroom =>
        rw [hadmits.opened] at hopened
        cases hopened
  | take | takeSent | forget | refuse | enqueueTried | activate | pick | rest => exact ⟨rfl,rfl,rfl⟩
  | park =>
    rw [parkedWith_eq]
    exact ⟨rfl,rfl,rfl⟩
  | enqueue =>
    rw [queuedWith_eq]
    exact ⟨rfl,rfl,rfl⟩
  | dropTried | dropDead | dropUnroutable | dropCurrent | complete | fail =>
    rw [dropQueued_eq]
    exact ⟨rfl,rfl,rfl⟩
  | relieve =>
    rw [relieved_eq]
    exact ⟨rfl,rfl,rfl⟩
  | handOver s item hlive =>
    rw [ht.valid.contains_request, hs.requests hopened] at hlive
    cases hlive
  | throwing s item hopen | error s h hempty hopen =>
    rw [hend] at hopen
    cases hopen
  | discard =>
    rw [discardSessionQueue_eq]
    exact ⟨rfl,rfl,rfl⟩
  | clear =>
    rw [cleared_eq]
    exact ⟨rfl,rfl,rfl⟩

theorem Shut.silent_path {p q : Strand N × Hand} (hp : p.1.Sound cfg p.2) (hs : p.1.Shut p.2) (m : Path cfg p q)
    (hend : p.1.channel.state.terminal = true) : Silent p.1 q.1 := by
  induction m with
  | refl => exact ⟨rfl,rfl,rfl⟩
  | tail path m ih =>
    have hsound := hp.path path
    exact ih.trans ((hs.path hp path).silent hsound.metered hsound.tracked m (Path.terminal path hend))

theorem opened_shut (generation : ℕ) (remote : Option Endpoint) : (opened (N := N) generation remote).Shut .empty where
  requests := nofun
  waits := nofun
  tx := fun _ => rfl
  pending := fun _ => rfl
  pressure := fun _ => rfl
  counters := fun _ => ⟨rfl,rfl⟩
  hand := nofun

/-- From any state of a run the rest is a path of moves. -/
theorem run_rest (hs : s.Sound cfg .empty) (more : List StepOp) : Path cfg (s,.empty) (s.run cfg more,.empty) := by
  induction more generalizing s with
  | nil => exact .refl
  | cons op more ih =>
    have hstep : Path cfg _ _ := step_path hs.metered.running hs.metered.phase op
    exact hstep.trans (ih (hs.path hstep))

/-- An error is final. From then on nothing is admitted and nothing goes to the socket, the
queues and their counters are empty, no request is outstanding and nobody waits, whatever
handlers were still on the strand and whatever is called. -/
theorem run_error_final (cfg : Config) (generation : ℕ) (remote : Option Endpoint) (ops more : List StepOp)
    (herror : ((opened generation remote : Strand N).run cfg ops).channel.state = .error) :
    let s : Strand N := (opened generation remote).run cfg ops
    let t : Strand N := (opened generation remote).run cfg (ops ++ more)
    t.channel.state = .error ∧ t.channel.opened = false ∧
    admissions t.events = admissions s.events ∧ handovers t.events = handovers s.events ∧
    t.channel.tx = [] ∧ t.channel.pending = [] ∧ t.channel.backpressureActive = false ∧
    t.channel.counters.queueBytes = 0 ∧ t.channel.counters.pendingBytes = 0 ∧
    (∀ id, t.channel.ledger.contains id = false) ∧ ∀ w ∈ t.channel.writeWaits, w.endedBy.isSome = true := by
  intro s t
  have hs : s.Sound cfg .empty := run_sound cfg generation remote ops
  have hshut : s.Shut .empty := (opened_shut generation remote).path (opened_sound cfg generation remote)
    (run_path generation remote ops)
  have hrest : Path cfg (s,.empty) (t,.empty) := by
    have happend : t = s.run cfg more := List.foldl_append
    rw [happend]
    exact run_rest hs more
  have hterminal : s.channel.state.terminal = true := by
    rw [show s.channel.state = .error from herror]
    rfl
  have ht := hs.path hrest
  have hsilent := hshut.silent_path hs hrest hterminal
  have hfinal := hshut.path hs hrest
  have hterminal := hrest.terminal hterminal
  have hclosed := ht.metered.running.opened hterminal
  refine ⟨hsilent.state.trans herror,hclosed,hsilent.admissions,hsilent.handovers,hfinal.tx hterminal,
    hfinal.pending hterminal,hfinal.pressure hterminal,(hfinal.counters hterminal).1,(hfinal.counters hterminal).2,
    fun id => ?_,hfinal.waits hclosed⟩
  rw [ht.tracked.valid.contains_request, hfinal.requests hclosed id]
  rfl

/-- A send fails while another datagram waits; both writes and a later one are over. -/
theorem run_error_final_sample :
    let ops : List StepOp :=
      [.call (.write [1,2] none (.copy true)),.call (.write [3] none .tryMove),.handler ⟨[],false⟩,
        .sent true 0 ⟨[],false⟩]
    let more : List StepOp := [.call (.write [4] none (.copy true)),.handler ⟨[],false⟩]
    let s : Strand ℤ := (opened 1 (some ⟨1,9000⟩)).run Channel.sampleConfig ops
    let t : Strand ℤ := (opened 1 (some ⟨1,9000⟩)).run Channel.sampleConfig (ops ++ more)
    t.channel.state = .error ∧ t.channel.opened = false ∧
    admissions t.events = admissions s.events ∧ handovers t.events = handovers s.events ∧
    t.channel.tx = [] ∧ t.channel.pending = [] ∧ t.channel.backpressureActive = false ∧
    t.channel.counters.queueBytes = 0 ∧ t.channel.counters.pendingBytes = 0 ∧
    (∀ id, t.channel.ledger.contains id = false) ∧ ∀ w ∈ t.channel.writeWaits, w.endedBy.isSome = true :=
  run_error_final Channel.sampleConfig 1 (some ⟨1,9000⟩) _ _ (by decide +kernel)

end Strand
end Wirestead.Transport.UdpChannel
