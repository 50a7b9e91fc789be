import Wirestead.Transport.TcpClient.Ordering

/-! # No accepted data is left stuck

While a connection is up and no stop was requested, every request that is held is live, so
the ledger never refuses a batch; a queue that is not empty has a write under way, and the
flag of pressure is on only above the low mark. A client with nothing posted and no write
under way therefore holds nothing.
-/
namespace Wirestead.Transport.TcpClient
open Diagnostics Sizes

namespace Sender
variable {N : Type*} [CommRing N] {cfg : Config} {allow : Flaw → Prop} {h h' : Hand} {a a' : Sender N}

def held (h : Hand) (a : Sender N) : List TrackedBuffer := a.line h ++ postedOn a.connectionSeq a.posted

def Up (a : Sender N) : Prop := a.connected = true ∧ a.stopRequested = false

/-- The requests that are held are live and differ from each other and from those of every
write under way. -/
structure Live (h : Hand) (a : Sender N) : Prop where
  valid : a.ledger.Valid
  flights : ∀ f ∈ writes a.outstanding, ∀ item ∈ f.batch.buffers, item.request ≤ a.ledger.nextId
  live : a.Up → ∀ item ∈ a.held h, a.ledger.contains item.request = true
  nodup : a.Up → ((a.held h).map TrackedBuffer.request).Nodup
  apart : a.Up → ∀ item ∈ a.held h, ∀ f ∈ writes a.outstanding, ∀ k ∈ f.batch.buffers, item.request ≠ k.request

omit [CommRing N] in
theorem Live.le (hl : Live h a) (hup : a.Up) {item : TrackedBuffer} (hm : item ∈ a.held h) :
    item.request ≤ a.ledger.nextId := hl.valid.live_le (hl.live hup item hm)

omit [CommRing N] in
theorem Live.keep {b : Sender N} (hl : Live h a) (hg : Ages a.ledger b.ledger)
    (hw : ∀ f ∈ writes b.outstanding, f ∈ writes a.outstanding)
    (hheld : b.Up → a.Up ∧ (b.held h').Perm (a.held h) ∧
      ∀ item ∈ a.held h, b.ledger.contains item.request = a.ledger.contains item.request) : Live h' b := by
  refine ⟨hg.valid,fun f hf item hi => (hl.flights f (hw f hf) item hi).trans hg.nextId,fun hb item hm => ?_,
    fun hb => ?_,fun hb item hm f hf => ?_⟩
  · obtain ⟨ha,hp,hc⟩ := hheld hb
    rw [hc item (hp.subset hm)]
    exact hl.live ha item (hp.subset hm)
  · obtain ⟨ha,hp,-⟩ := hheld hb
    exact ((hp.map TrackedBuffer.request).nodup_iff).mpr (hl.nodup ha)
  · obtain ⟨ha,hp,-⟩ := hheld hb
    exact hl.apart ha item (hp.subset hm) f (hw f hf)

omit [CommRing N] in
theorem Live.down {b : Sender N} (hl : Live h a) (hg : Ages a.ledger b.ledger)
    (hw : ∀ f ∈ writes b.outstanding, f ∈ writes a.outstanding) (hdown : ¬ b.Up) : Live h' b :=
  hl.keep hg hw (fun hb => absurd hb hdown)

omit [CommRing N] in
theorem Live.relieve (hl : Live h a) : Live h (a.relieve cfg) := by
  unfold Sender.relieve
  split
  · refine hl.keep (.refl hl.valid) (fun _ => id) (fun hb => ⟨hb,?_,fun _ _ => rfl⟩)
    simp [held, line]
  · exact hl

theorem lose_writes : writes a.lose.outstanding = writes a.outstanding := by
  unfold Sender.lose Sender.disconnect
  split <;> rfl

theorem lose_not_up : ¬ a.lose.Up := fun hup => absurd (a.lose_connected.symm.trans hup.1) (by simp)

theorem Live.lose (hl : Live h a) : Live h' a.lose := by
  refine hl.down (disconnect_ages hl.valid) (fun f hf => ?_) lose_not_up
  rw [lose_writes] at hf
  exact hf

theorem Live.accept (hl : Live h a) {data : List UInt8} {counters : Counters}
    {handler : TrackedBuffer → Handler} (hon : ∀ item, (handler item).on? a.connectionSeq = some item) :
    Live h (({ a with counters := counters } : Sender N).accept data handler) := by
  obtain ⟨hv,-,hnext,hlive⟩ := hl.valid.admitRequest_live data.length none
  have hheld : (({ a with counters := counters } : Sender N).accept data handler).held h =
      a.held h ++ [⟨data,a.ledger.nextId + 1⟩] := by
    change a.line h ++ postedOn a.connectionSeq (a.posted ++ [_]) = _
    rw [postedOn_append, postedOn_cons, hon, ← List.append_assoc]
    rfl
  refine ⟨hv,fun f hf item hi => ?_,fun hup item hm => ?_,fun hup => ?_,fun hup item hm f hf k hk => ?_⟩
  · change item.request ≤ (a.ledger.admitRequest data.length none).1.nextId
    rw [hnext]
    exact (hl.flights f hf item hi).trans (Nat.le_succ _)
  · rw [hheld] at hm
    refine (hlive _).mpr ?_
    rcases List.mem_append.mp hm with hm | hm
    · exact .inl (hl.live hup item hm)
    · rw [List.mem_singleton.mp hm]
      exact .inr rfl
  · rw [hheld, List.map_append, List.nodup_append]
    refine ⟨hl.nodup hup,List.nodup_singleton _,fun id hid k hk => ?_⟩
    obtain ⟨item,hm,rfl⟩ := List.mem_map.mp hid
    rw [List.mem_singleton.mp hk]
    exact Nat.ne_of_lt (Nat.lt_succ_of_le (hl.le hup hm))
  · rw [hheld] at hm
    rcases List.mem_append.mp hm with hm | hm
    · exact hl.apart hup item hm f hf k hk
    · rw [List.mem_singleton.mp hm]
      exact (Nat.lt_succ_of_le (hl.flights f hf k hk)).ne'

omit [CommRing N] in
theorem Live.beginBatch {buffers : List TrackedBuffer} (hl : Live (.batch buffers) a) (hup : a.Up) :
    (a.ledger.beginBatch (buffers.map (·.request))).2 = true := by
  refine hl.valid.beginBatch_of_live fun id hid => ?_
  obtain ⟨item,hm,rfl⟩ := List.mem_map.mp hid
  exact hl.live hup item (List.mem_append_left _ (List.mem_append_left _ (List.mem_append_left _ hm)))

omit [CommRing N] in
theorem Live.record {buffers : List TrackedBuffer} (hl : Live (.batch buffers) a) (hup : a.Up)
    {o : List Outstanding} {g : Flight} (ho : writes o = writes a.outstanding ++ [g]) (hg : g.batch.buffers = buffers) :
    Live .empty ({ a.record buffers (totalBytes buffers) with outstanding := o } : Sender N) := by
  have hr := hl.valid.retires_beginBatch (buffers.map (·.request))
  have ho : ∀ f ∈ writes o, f ∈ writes a.outstanding ∨ f = g := by
    intro f hf
    rw [ho] at hf
    exact (List.mem_append.mp hf).imp_right List.mem_singleton.mp
  have hheld : a.held (.batch buffers) = buffers ++ a.held .empty := by
    simp [held, line, Hand.front]
  have hsub : ∀ item ∈ a.held .empty, item ∈ a.held (.batch buffers) := by
    intro item hm
    rw [hheld]
    exact List.mem_append_right _ hm
  have hnodup := hl.nodup hup
  rw [hheld, List.map_append, List.nodup_append] at hnodup
  have hin : ∀ item ∈ buffers, item ∈ a.held (.batch buffers) := by
    intro item hm
    rw [hheld]
    exact List.mem_append_left _ hm
  refine ⟨hr.valid,fun f hf item hi => ?_,fun _ item hm => ?_,fun _ => hnodup.2.1,fun _ item hm f hf k hk => ?_⟩
  · change item.request ≤ (a.ledger.beginBatch (buffers.map (·.request))).1.nextId
    rw [hr.nextId]
    rcases ho f hf with hf | rfl
    · exact hl.flights f hf item hi
    · exact hl.le hup (hin item (hg ▸ hi))
  · change (a.ledger.beginBatch (buffers.map (·.request))).1.contains item.request = true
    rw [hl.valid.contains_beginBatch]
    exact hl.live hup item (hsub item hm)
  · rcases ho f hf with hf | rfl
    · exact hl.apart hup item (hsub item hm) f hf k hk
    · exact (hnodup.2.2 k.request (List.mem_map_of_mem (hg ▸ hk)) item.request (List.mem_map_of_mem hm)).symm

theorem live_init (settings : Settings) : Live .empty (State.init settings : State N).sender :=
  ⟨Ledger.valid_new,fun _ hm => (by cases hm),(fun hu => nomatch hu.1),(fun hu => nomatch hu.1),(fun hu => nomatch hu.1)⟩

omit [CommRing N] in
theorem held_perm {b : Sender N} {handler : Handler} {item : TrackedBuffer} {rest : List Handler}
    (hp : a.posted = handler :: rest) (hon : handler.on? a.connectionSeq = some item)
    (hc : b.connectionSeq = a.connectionSeq) (hposted : b.posted = rest)
    (hl : (b.line h').Perm (a.line h ++ [item])) : (b.held h').Perm (a.held h) := by
  unfold held
  rw [hc, hposted, hp, postedOn_cons, hon]
  exact (hl.append_right _).trans (by simp)

omit [CommRing N] in
/-- A handler that holds nothing for the connection is taken. -/
theorem held_pop {handler : Handler} {rest : List Handler} (hp : a.posted = handler :: rest)
    (hon : handler.on? a.connectionSeq = none) : (a.line h ++ postedOn a.connectionSeq rest).Perm (a.held h) := by
  unfold held
  rw [postedOn_pop hp hon]

omit [CommRing N] in
theorem line_snoc (item : TrackedBuffer) :
    (a.tx ++ [item] ++ a.pending).Perm (a.tx ++ a.pending ++ [item]) := by
  rw [List.append_assoc, List.append_assoc]
  exact List.perm_append_comm.append_left _

/-- A batch that completes is apart from what is held. -/
theorem Live.contains_settle (hl : Live h a) {l r : List Flight} {f : Flight}
    (hw : writes a.outstanding = l ++ f :: r) (hup : a.Up) (n : ℕ) :
    ∀ item ∈ a.held h, (a.settle f.batch n).ledger.contains item.request = a.ledger.contains item.request := by
  intro item hi
  refine hl.valid.completeBatch_live n fun hmem => ?_
  rw [List.map_map] at hmem
  obtain ⟨k,hk,heq⟩ := List.mem_map.mp hmem
  exact hl.apart hup item hi f (by rw [hw]; simp) k hk heq.symm

omit [CommRing N] in
/-- A new connection finds nothing queued and nothing posted for it. -/
theorem Live.connect (hl : Live .empty a) (ht : Tidy a) (hr : Ranked a) (hs : a.stopRequested = false) :
    Live .empty { a with connected := true, state := .connected } := by
  cases hc : a.connected with
  | true => exact hl.keep (.refl hl.valid) (fun _ => id) (fun _ => ⟨⟨hc,hs⟩,.refl _,fun _ _ => rfl⟩)
  | false =>
    obtain ⟨htx,hpending,-⟩ := ht.down hc
    have hnil : ({ a with connected := true, state := .connected } : Sender N).held .empty = [] := by
      simp [held, line, htx, hpending, hr.postedOn_of_down hc, Hand.front]
    refine ⟨hl.valid,hl.flights,?_,?_,?_⟩ <;> rw [hnil]
    · exact fun _ _ hm => (by cases hm)
    · exact fun _ => .nil
    · exact fun _ _ hm => (by cases hm)

theorem Live.move (hl : Live h a) (ht : Tidy a) (hr : Ranked a) (hf : Fit cfg h a) (hleak : ¬ allow .leak)
    (hstrand : ¬ allow .strand) (hm : Move cfg allow (h,a) (h',a')) : Live h' a' := by
  have hg := move_ages hm hl.valid
  cases hm with
  | operate _ o ho =>
    refine hl.keep hg (fun f hf => ?_) (fun hb => ⟨hb,.refl _,fun _ _ => rfl⟩)
    exact ho ▸ hf
  | pop _ handler rest hp hi =>
    exact hl.keep hg (fun _ => id) (fun hb => ⟨hb,held_pop hp (on?_eq_none hi _),fun _ _ => rfl⟩)
  | connect _ hs => exact hl.connect ht hr hs
  | lose => exact hl.lose
  | strand _ ha => exact absurd ha hstrand
  | purge _ hc => exact hl.down hg (fun _ => id) (fun hup => absurd (hc.symm.trans hup.1) (by simp))
  | restart _ hst =>
    have hc := hf.down hst
    revert hg
    unfold Sender.restart Sender.disconnect
    dsimp only
    rw [if_neg (by simp [hc])]
    intro hg
    exact hl.down hg (fun _ => id) (fun hup => absurd (hc.symm.trans hup.1) (by simp))
  | post _ _ handler hi =>
    refine hl.keep hg (fun _ => id) (fun hb => ⟨hb,?_,fun _ _ => rfl⟩)
    change (a.line h ++ postedOn a.connectionSeq (a.posted ++ [handler])).Perm (a.held h)
    rw [postedOn_append, postedOn_cons, on?_eq_none hi]
    simp [held, postedOn]
  | plain => exact hl.accept (fun _ => if_pos rfl)
  | tryPlain => exact hl.accept (fun _ => if_pos rfl)
  | leak _ _ _ _ ha => exact absurd ha hleak
  | relabel _ _ ledger hrel =>
    exact hl.keep hg (fun _ => id) (fun hb => ⟨hb,.refl _,fun item _ => (hrel hl.valid).2.2 item.request⟩)
  | stop => exact hl.down hg (fun _ => id) (fun hup => absurd hup.2 (by simp))
  | take _ _ buffers rest hmay _ _ htx =>
    refine hl.keep hg (fun _ => id) (fun hb => ⟨hb,?_,fun _ _ => rfl⟩)
    rw [held, held, line, line, htx, Hand.front_of_mayWrite hmay]
    exact .refl _
  | putBack _ buffers =>
    refine hl.keep hg (fun _ => id) (fun hb => ⟨hb,?_,fun _ _ => rfl⟩)
    simp [held, line, Hand.front]
  | write _ buffers o hs hb ho =>
    exact hl.record ⟨(hf.busy id).2,hs⟩ ho rfl
  | writeThrows =>
    refine hl.down hg (fun f hf => ?_) lose_not_up
    rw [lose_writes] at hf
    exact hf
  | idle _ _ hmay =>
    refine hl.keep hg (fun _ => id) (fun hb => ⟨hb,?_,fun _ _ => rfl⟩)
    rw [held, held, line, line, Hand.front_of_mayWrite hmay]
    exact .refl _
  | halt _ _ _ hs => exact hl.down hg (fun _ => id) (fun hup => absurd (hs.symm.trans hup.2) (by simp))
  | relieve => exact hl.relieve
  | route _ item rest hp =>
    refine hl.keep hg (fun _ => id) (fun hb => ⟨hb,held_perm hp (if_pos rfl) rfl rfl (line_snoc item),fun _ _ => rfl⟩)
  | park _ item rest hp =>
    refine hl.keep hg (fun _ => id) (fun hb => ⟨hb,held_perm hp (if_pos rfl) rfl rfl ?_,fun _ _ => rfl⟩)
    simp [line]
  | drop _ handler rest item seq connection hp hdrop =>
    have hon := hr.on?_of_drop (hp ▸ List.mem_cons_self) hdrop
    exact hl.keep hg (fun _ => id) (fun hb => ⟨hb,held_pop hp hon,fun _ _ => rfl⟩)
  | unreserve _ item rest connection hp hc =>
    refine hl.keep hg (fun _ => id) (fun hb => ⟨hb,held_pop hp (if_neg ?_),fun _ _ => rfl⟩)
    exact hc.resolve_right (not_not.mpr (hf.open hb.1 hb.2))
  | routeTry _ item rest hp =>
    refine hl.keep hg (fun _ => id) (fun hb => ⟨hb,held_perm hp (if_pos rfl) rfl rfl (line_snoc item),fun _ _ => rfl⟩)
  | unreserveTry _ item rest hp ho =>
    exact hl.down hg (fun _ => id) (fun hup => ho (hf.open hup.1 hup.2))
  | complete _ l r o seq b n hw ho =>
    rw [relieve_ledger] at hg
    refine Live.relieve (hl.keep hg (fun f hf => (writes_sublist hw ho).subset hf)
      (fun hb => ⟨hb,.refl _,hl.contains_settle hw hb n⟩))
  | completeStale _ l r o seq connection b n hw hc ho =>
    exact hl.keep hg (fun f hf => (writes_sublist hw ho).subset hf)
      (fun hb => ⟨hb,.refl _,hl.contains_settle hw hb n⟩)
  | fail _ l r o seq b n hw ho =>
    refine hl.down hg (fun f hf => ?_) lose_not_up
    rw [lose_writes] at hf
    exact (writes_sublist hw ho).subset hf
  | _ => exact hl.keep hg (fun _ => id) (fun hb => ⟨hb,.refl _,fun _ _ => rfl⟩)

end Sender

/-- What the running handler owes the queue. -/
def Hand.Minds {N : Type*} (a : Sender N) : Hand → Prop
  | .empty => (a.tx ≠ [] → a.writing = true) ∧ (a.writing = true → a.activeWrite.isSome)
  | .queued => a.writing = true → a.activeWrite.isSome
  | .finishing => True
  | .batch _ => True

/-- The level at which pressure goes off is below the one at which it goes on. -/
theorem Config.bpLow_lt_bpHigh (cfg : Config) : cfg.bpLow < cfg.bpHigh := by
  have h := cfg.threshold_ge
  unfold Config.bpLow Config.bpHigh
  dsimp only
  split_ifs <;> omega

namespace Sender
variable {N : Type*} [CommRing N] {cfg : Config} {allow : Flaw → Prop} {h h' : Hand} {a a' : Sender N}

/-- A queue that is not empty is being written, and pressure is on only above the low mark. -/
structure Driven (cfg : Config) (h : Hand) (a : Sender N) : Prop where
  stops : a.stopping = true → a.stopRequested = true
  rests : a.connected = false → a.writing = false
  calm : a.connected = false → a.stopRequested = false → a.backpressureActive = false
  level : a.Up → a.backpressureActive = true → cfg.bpLow < a.counters.queueBytes
  busy : a.Up → h.Minds a

omit [CommRing N] in
/-- A report at the end of which pressure is on leaves the level above the low mark. -/
theorem Driven.relieve {b : Sender N} (hd : Driven cfg h a) (hstops : b.stopping = a.stopping)
    (hs : b.stopRequested = a.stopRequested) (hc : b.connected = true) (hbusy : b.Up → h'.Minds (b.relieve cfg)) :
    Driven cfg h' (b.relieve cfg) := by
  have hstop : b.stopping = true → b.stopRequested = true := by
    rw [hstops, hs]
    exact hd.stops
  revert hbusy
  unfold Sender.relieve
  split
  · intro hbusy
    exact ⟨hstop,fun hn => absurd (hc.symm.trans hn) (by simp),fun hn => absurd (hc.symm.trans hn) (by simp),
      fun _ hn => (by cases hn),hbusy⟩
  · rename_i hcond
    intro hbusy
    refine ⟨hstop,fun hn => absurd (hc.symm.trans hn) (by simp),fun hn => absurd (hc.symm.trans hn) (by simp),
      fun hup hbp => ?_,hbusy⟩
    by_contra hle
    refine hcond ⟨?_,hbp,not_lt.mp hle⟩
    rintro (hn | hn)
    · exact absurd (hup.2.symm.trans hn) (by simp)
    · exact absurd (hup.2.symm.trans (hstop hn)) (by simp)

theorem driven_lose (hstop : a.lose.stopping = true → a.lose.stopRequested = true) : Driven cfg .empty a.lose :=
  ⟨hstop,fun _ => rfl,fun _ _ => rfl,fun hup => absurd hup lose_not_up,fun hup => absurd hup lose_not_up⟩

theorem lose_stops (hstop : a.stopping = true → a.stopRequested = true) :
    a.lose.stopping = true → a.lose.stopRequested = true := by
  unfold Sender.lose Sender.disconnect
  split <;> exact hstop

omit [CommRing N] in
/-- A connection that comes up finds the queue empty and the writer at rest. -/
theorem Driven.connect (hd : Driven cfg .empty a) (ht : Tidy a) (hs : a.stopRequested = false) :
    Driven cfg .empty { a with connected := true, state := .connected } := by
  cases hc : a.connected with
  | true =>
    exact ⟨hd.stops,(fun hn => nomatch hn),(fun hn => nomatch hn),fun _ => hd.level ⟨hc,hs⟩,fun _ => hd.busy ⟨hc,hs⟩⟩
  | false =>
    refine ⟨hd.stops,(fun hn => nomatch hn),(fun hn => nomatch hn),fun _ hbp => ?_,
      fun _ => ⟨fun hn => ?_,fun hn => ?_⟩⟩
    · exact absurd ((hd.calm hc hs).symm.trans hbp) (by simp)
    · exact absurd (ht.down hc).1 hn
    · exact absurd ((hd.rests hc).symm.trans hn) (by simp)

omit [CommRing N] in
/-- Nothing is queued for a connection that is down. -/
theorem Counted.queue_of_down (hc : Counted h a) (ht : Tidy a) (hr : Ranked a) (hf : Fit cfg h a)
    (hdown : a.connected = false) : a.counters.queueBytes = 0 := by
  have hfront : h.front = [] := by
    cases h with
    | batch buffers => exact absurd ((hf.busy id).2.symm.trans hdown) (by simp)
    | _ => rfl
  rw [hc.queue, hfront, (ht.down hdown).1, ht.active_eq_nil (hf.present_of_down hdown), hr.tryPosted_of_down hdown]
  rfl

omit [CommRing N] in
/-- While no connection is up pressure is off, and the queue is not looked at. -/
theorem Driven.relieveQueued (hd : Driven cfg .queued a) : Driven cfg .queued (a.relieve cfg) := by
  cases hconn : a.connected with
  | true =>
    refine hd.relieve rfl rfl hconn (fun hu => ?_)
    unfold Sender.relieve
    split <;> exact hd.busy hu
  | false =>
    unfold Sender.relieve
    rw [if_neg]
    · exact hd
    · rintro ⟨hs,hbp,-⟩
      exact absurd ((hd.calm hconn (by simpa using (not_or.mp hs).1)).symm.trans hbp) (by simp)

theorem Driven.move (hd : Driven cfg h a) (hl : Live h a) (hc : a.stopRequested = false → Counted h a) (ht : Tidy a)
    (hr : Ranked a) (hf : Fit cfg h a) (hleak : ¬ allow .leak) (hstrand : ¬ allow .strand) (habort : ¬ allow .abort)
    (hm : Move cfg allow (h,a) (h',a')) : Driven cfg h' a' := by
  have hup : ∀ {p : Prop}, a.connected = true → a.connected = false → p :=
    fun hc hn => absurd (hc.symm.trans hn) (by simp)
  cases hm with
  | connect _ hs => exact hd.connect ht hs
  | lose => exact driven_lose (lose_stops hd.stops)
  | strand _ ha => exact absurd ha hstrand
  | purge _ hdown =>
    exact ⟨hd.stops,fun _ => rfl,fun _ _ => rfl,fun hu => hup hu.1 hdown,fun hu => hup hu.1 hdown⟩
  | rest _ hdown => exact ⟨hd.stops,fun _ => rfl,hd.calm,hd.level,fun hu => hup hu.1 hdown⟩
  | restart _ hst =>
    have hdown := hf.down hst
    unfold Sender.restart Sender.disconnect
    dsimp only
    rw [if_neg (by simp [hdown])]
    exact ⟨(fun hn => nomatch hn),fun _ => rfl,fun _ _ => rfl,fun hu => hup hu.1 hdown,fun hu => hup hu.1 hdown⟩
  | plain => exact ⟨hd.stops,hd.rests,hd.calm,hd.level,hd.busy⟩
  | tryPlain => exact ⟨hd.stops,hd.rests,hd.calm,fun hu hbp => (hd.level hu hbp).trans_le (Nat.le_add_right _ _),hd.busy⟩
  | leak _ _ _ _ ha => exact absurd ha hleak
  | stop => exact ⟨fun _ => rfl,hd.rests,(fun _ hn => nomatch hn),(fun hu => nomatch hu.2),(fun hu => nomatch hu.2)⟩
  | queue => exact ⟨hd.stops,hd.rests,hd.calm,hd.level,fun hu => (hd.busy hu).2⟩
  | written _ hw => exact ⟨hd.stops,hd.rests,hd.calm,hd.level,fun hu => ⟨fun _ => hw,hd.busy hu⟩⟩
  | take _ _ buffers rest hmay hopen hconn => exact ⟨hd.stops,fun hn => hup hconn hn,hd.calm,hd.level,fun _ => trivial⟩
  | putBack _ buffers hrefused =>
    refine ⟨hd.stops,fun _ => rfl,hd.calm,hd.level,fun hu => ?_⟩
    rcases hrefused with hs | hb
    · exact absurd (hu.2.symm.trans hs) (by simp)
    · exact absurd ((hl.beginBatch hu).symm.trans hb) (by simp)
  | write _ buffers o hs hb ho =>
    obtain ⟨hw,hconn⟩ := hf.busy id
    exact ⟨hd.stops,fun hn => hup hconn hn,hd.calm,hd.level,fun _ => ⟨fun _ => hw,fun _ => rfl⟩⟩
  | writeThrows _ buffers =>
    exact driven_lose (lose_stops (a := a.record buffers (totalBytes buffers)) hd.stops)
  | idle _ _ hmay hidle =>
    refine ⟨hd.stops,fun _ => rfl,hd.calm,hd.level,fun hu => ⟨fun hn => ?_,(fun hn => nomatch hn)⟩⟩
    rcases hidle with hdown | htx | hopen
    · exact hup hu.1 hdown
    · exact absurd htx hn
    · exact absurd (hf.open hu.1 hu.2) hopen
  | halt _ _ _ hs =>
    exact ⟨hd.stops,fun _ => rfl,fun _ hn => absurd (hs.symm.trans hn) (by simp),
      fun hu => absurd (hs.symm.trans hu.2) (by simp),fun hu => absurd (hs.symm.trans hu.2) (by simp)⟩
  | on _ _ hoff hhigh =>
    refine ⟨hd.stops,hd.rests,fun hdown hs => ?_,fun _ _ => cfg.bpLow_lt_bpHigh.trans_le hhigh,hd.busy⟩
    have hqueue := (hc hs).queue_of_down ht hr hf hdown
    have hlow := cfg.bpLow_lt_bpHigh
    omega
  | relieve => exact hd.relieveQueued
  | route _ item rest hp ho hbp =>
    exact ⟨hd.stops,hd.rests,hd.calm,fun _ hn => absurd (hbp.symm.trans hn) (by simp),fun hu => (hd.busy hu).2⟩
  | routeTry _ item rest hp => exact ⟨hd.stops,hd.rests,hd.calm,hd.level,fun hu => (hd.busy hu).2⟩
  | unreserveTry _ item rest hp ho =>
    exact ⟨hd.stops,hd.rests,hd.calm,fun hu => absurd (hf.open hu.1 hu.2) ho,hd.busy⟩
  | complete _ l r o seq b n hw ho =>
    obtain ⟨-,-,hconn,-⟩ := hf.present_complete hw ho
    exact hd.relieve rfl rfl hconn (fun _ => trivial)
  | completeStale _ l r o seq connection b n hw hst ho =>
    refine ⟨hd.stops,hd.rests,hd.calm,hd.level,fun hu => ⟨(hd.busy hu).1,fun hw => ?_⟩⟩
    rw [Option.isSome_map]
    exact (hd.busy hu).2 hw
  | fail _ l r o seq b n =>
    exact driven_lose (lose_stops (a := ({ a.settle b n with outstanding := o } : Sender N)) hd.stops)
  | giveUp _ ha => exact absurd ha habort
  | _ => exact ⟨hd.stops,hd.rests,hd.calm,hd.level,hd.busy⟩

omit [CommRing N] in
theorem Driven.quiet (hd : Driven cfg .empty a) (hup : a.Up) (hc : Counted .empty a) (hp : Parked a) (ht : Tidy a)
    (hposted : a.posted = []) (hpresent : a.present = []) :
    a.tx = [] ∧ a.pending = [] ∧ a.backpressureActive = false ∧ a.counters = .zero := by
  have hactive : a.activeWrite = none := by
    have h := ht.active
    rw [hpresent] at h
    exact Option.toList_eq_nil_iff.mp h.symm
  have hwriting : a.writing = false := by
    cases hw : a.writing with
    | false => rfl
    | true =>
      have hsome := (hd.busy hup).2 hw
      rw [hactive] at hsome
      cases hsome
  have htx : a.tx = [] := by
    by_contra hne
    exact absurd (hwriting.symm.trans ((hd.busy hup).1 hne)) (by simp)
  have hqueue : a.counters.queueBytes = 0 := by
    rw [hc.queue, htx, ht.active_eq_nil hpresent, hposted]
    rfl
  have hoff : a.backpressureActive = false := by
    cases hbp : a.backpressureActive with
    | false => rfl
    | true =>
      have hlow := hd.level hup hbp
      omega
  have hpending : a.pending = [] := by
    by_contra hne
    exact absurd (hoff.symm.trans (hp hne)) (by simp)
  have hparked : a.counters.pendingBytes = 0 := by
    rw [hc.pending, hpending]
    rfl
  have hinflight : a.counters.inflightBytes = 0 := by
    rw [hc.inflight, hposted]
    rfl
  have hcounters : a.counters = ⟨a.counters.queueBytes,a.counters.pendingBytes,a.counters.inflightBytes⟩ := rfl
  rw [hqueue, hparked, hinflight] at hcounters
  exact ⟨htx,hpending,hoff,hcounters⟩

end Sender

namespace State
variable {N : Type*} [CommRing N]

/-- Parked requests mean pressure, and a client with nothing posted and no write of its
connection under way holds nothing. -/
structure Unstuck (s : State N) : Prop where
  parked : s.pending ≠ [] → s.backpressureActive = true
  quiet : s.posted = [] → (∀ f ∈ writes s.outstanding, f.connection ≠ s.connectionSeq) →
    s.tx = [] ∧ s.pending = [] ∧ s.backpressureActive = false ∧ s.counters = .zero

/-- In every run in which no call fails after its reservation, no attempt fails beside a
live connection and no write of a live connection is aborted, nothing is stuck while a
connection is up. -/
theorem run_unstuck (cfg : Config) (settings : Settings) (ops : List StepOp)
    (hops : Heeds cfg (fun flaw => flaw = .overtake) (init settings : State N) ops)
    (hc : ((init settings : State N).run cfg ops).connected = true)
    (hs : ((init settings : State N).run cfg ops).stopRequested = false) :
    ((init settings : State N).run cfg ops).Unstuck := by
  obtain ⟨hf,hr,ht,hcount,hp,hl,hd⟩ := run_keeps
    (J := fun h a => Sender.Ranked a ∧ Sender.Tidy a ∧ (a.stopRequested = false → Sender.Counted h a) ∧
      Sender.Parked a ∧ Sender.Live h a ∧ Sender.Driven cfg h a)
    (fun hm hf ⟨hr,ht,hc,hp,hl,hd⟩ => ⟨hr.move hf hm,ht.move hr hf (by simp) hm,
      Sender.Counted.move hc ht hr hf (by simp) (by simp) hm,hp.move hm,hl.move ht hr hf (by simp) (by simp) hm,
      hd.move hl hc ht hr hf (by simp) (by simp) (by simp) hm⟩)
    settings ops ⟨Sender.ranked_init settings,Sender.tidy_init settings,fun _ => ⟨rfl,rfl,rfl⟩,fun hn => absurd rfl hn,
      Sender.live_init settings,
      ⟨(fun hn => nomatch hn),fun _ => rfl,fun _ _ => rfl,(fun hu => nomatch hu.1),(fun hu => nomatch hu.1)⟩⟩ hops
  refine ⟨hp,fun hposted hflights => ?_⟩
  have hpresent : ((init settings : State N).run cfg ops).sender.present = [] := by
    refine List.filter_eq_nil_iff.mpr fun f hf heq => ?_
    exact hflights f hf (of_decide_eq_true heq)
  exact hd.quiet ⟨hc,hs⟩ (hcount hs) hp ht hposted hpresent

section Sample

def finishOps : List StepOp :=
  connectOps ++ [.caller (.write .move [1,2,3] none ⟨false,false⟩),.handler .none,.handler .none,
    .complete 2 ⟨.success,3,false⟩ .none]

/-- `run_unstuck` on a run that ends with nothing posted and nothing under way. -/
theorem unstuck_sample :
    ((init sampleSettings : State ℤ).run sampleConfig finishOps).posted = [] ∧
    writes ((init sampleSettings : State ℤ).run sampleConfig finishOps).outstanding = [] ∧
    ((init sampleSettings : State ℤ).run sampleConfig finishOps).Unstuck :=
  ⟨by decide +kernel,by decide +kernel,
    run_unstuck sampleConfig sampleSettings finishOps (by decide +kernel) (by decide +kernel) (by decide +kernel)⟩

/-- The copy whose pooled attempt fails, handed over and completed. -/
def leakFinishOps : List StepOp :=
  leakOps ++ [.handler .none,.handler .none,.complete 2 ⟨.success,3,false⟩ .none]

/-- The connection is up and at rest, and three bytes stay reserved. -/
theorem leak_never_quiet :
    ((init sampleSettings : State ℤ).run sampleConfig leakFinishOps).connected = true ∧
    ((init sampleSettings : State ℤ).run sampleConfig leakFinishOps).stopRequested = false ∧
    ¬ ((init sampleSettings : State ℤ).run sampleConfig leakFinishOps).Unstuck := by
  have hposted : ((init sampleSettings : State ℤ).run sampleConfig leakFinishOps).posted = [] := by decide +kernel
  have hwrites : writes ((init sampleSettings : State ℤ).run sampleConfig leakFinishOps).outstanding = [] := by
    decide +kernel
  have hreserved : ((init sampleSettings : State ℤ).run sampleConfig leakFinishOps).counters = ⟨0,0,3⟩ := by
    decide +kernel
  refine ⟨by decide +kernel,by decide +kernel,fun hu => ?_⟩
  obtain ⟨-,-,-,hzero⟩ := hu.quiet hposted (by rw [hwrites]; exact fun _ hm => (by cases hm))
  rw [hreserved] at hzero
  cases hzero

end Sample
end State
end Wirestead.Transport.TcpClient
