import Wirestead.Transport.ServerSession.Handlers

/-! # The counters of a session are exact

The bytes behind `queue_bytes_` are in `tx_`, in the batch at the socket, in the posts of
nonblocking writes and in the hand of a handler; the posts of plain writes are in flight.
A session that is closing gives back what it can and counts no longer.
-/
namespace Wirestead.Transport.ServerSession
open Diagnostics Sizes TcpClient

theorem Config.bpLimit_lt (cfg : Config) : cfg.bpLimit < modulus := by
  have hmax : maxBufferSize < modulus := by decide
  exact (min_le_right _ _).trans_lt hmax

def Post.plain? : Post → Option TrackedBuffer
  | .enqueue item => some item
  | _ => none

def Post.tried? : Post → Option TrackedBuffer
  | .tryEnqueue item => some item
  | _ => none

/-- The plain writes that wait on the strand. -/
def plains (queue : List Post) : List TrackedBuffer := queue.filterMap Post.plain?

/-- The nonblocking ones. -/
def tries (queue : List Post) : List TrackedBuffer := queue.filterMap Post.tried?

@[simp] theorem plains_append (queue more : List Post) : plains (queue ++ more) = plains queue ++ plains more :=
  List.filterMap_append

@[simp] theorem tries_append (queue more : List Post) : tries (queue ++ more) = tries queue ++ tries more :=
  List.filterMap_append

/-- What a handler has taken up and `queue_bytes_` counts. -/
def Hand.counted : Hand → List TrackedBuffer
  | .tried item => [item]
  | .confirmed buffers => buffers
  | _ => []

def Hand.reserved : Hand → List TrackedBuffer
  | .plain item => [item]
  | _ => []

theorem plains_cons (post : Post) (rest : List Post) : plains (post :: rest) = post.hand.reserved ++ plains rest := by
  cases post <;> rfl

theorem tries_cons (post : Post) (rest : List Post) : tries (post :: rest) = post.hand.counted ++ tries rest := by
  cases post <;> rfl

@[simp] theorem plains_singleton (post : Post) : plains [post] = post.hand.reserved := by
  rw [plains_cons]
  exact List.append_nil _

@[simp] theorem tries_singleton (post : Post) : tries [post] = post.hand.counted := by
  rw [tries_cons]
  exact List.append_nil _

theorem tryReserveLimitBytes_some {cfg : Config} {c counters : Counters} {size : ℕ}
    (hroom : tryReserveLimitBytes c size cfg.bpLimit = some (true,counters)) :
    c.total + size ≤ cfg.bpLimit ∧ counters = { c with inflightBytes := c.inflightBytes + size } := by
  rw [tryReserveLimitBytes_eq cfg.bpLimit_lt] at hroom
  split_ifs at hroom with hfits
  · cases hroom
    exact ⟨hfits.2,rfl⟩
  · cases hroom

theorem tryReserveWriteBytesLocked_some {cfg : Config} {c counters : Counters} {active : Bool} {size : ℕ}
    (hroom : tryReserveWriteBytesLocked c active size cfg.bpHigh cfg.bpLimit = some (true,counters)) :
    c.total + size ≤ cfg.bpLimit ∧ counters = { c with queueBytes := c.queueBytes + size } := by
  rw [tryReserveWriteBytesLocked_eq cfg.bpLimit_lt] at hroom
  split_ifs at hroom with hfits
  · cases hroom
    exact ⟨hfits.2.2.2,rfl⟩
  · cases hroom

namespace Session
variable {N : Type*} {cfg : Config} {s t : Session N} {h k : Hand}

/-- What `queue_bytes_` counts. -/
def held (s : Session N) (h : Hand) : List TrackedBuffer :=
  s.tx ++ s.currentWriteBatch ++ tries s.queue ++ h.counted

/-- Reserved bytes are of posts that have not been routed, and all bytes fit. -/
structure Bounded (cfg : Config) (s : Session N) (h : Hand) : Prop where
  inflight : s.counters.inflightBytes = totalBytes (plains s.queue) + totalBytes h.reserved
  within : s.counters.total ≤ cfg.bpLimit

/-- The counters are the bytes behind them. -/
structure Counted (s : Session N) (h : Hand) : Prop where
  queue : s.counters.queueBytes = totalBytes (s.held h)
  pending : s.counters.pendingBytes = totalBytes s.pending

/-- A reserved write is never refused. -/
theorem Bounded.not_refused {item : TrackedBuffer} (hb : s.Bounded cfg (.plain item)) :
    decideEnqueue s.counters.queueBytes s.counters.pendingBytes s.backpressureActive item.size
      cfg.bpLimit ≠ some .rejected := by
  have hinflight := hb.inflight
  have hwithin := hb.within
  simp only [Hand.reserved, totalBytes_cons, totalBytes_nil] at hinflight
  unfold Counters.total at hwithin
  rw [decideEnqueue_eq, if_neg (by omega)]
  split_ifs <;> simp

/-- Releasing what is queued keeps within the limit. -/
theorem Bounded.shrink (hb : s.Bounded cfg h) (hposts : plains t.queue = plains s.queue)
    (hhand : k.reserved = h.reserved) (hqueue : t.counters.queueBytes ≤ s.counters.queueBytes)
    (hpending : t.counters.pendingBytes ≤ s.counters.pendingBytes)
    (hinflight : t.counters.inflightBytes = s.counters.inflightBytes) : t.Bounded cfg k := by
  have hwithin := hb.within
  unfold Counters.total at hwithin
  refine ⟨by rw [hinflight, hposts, hhand, hb.inflight],?_⟩
  unfold Counters.total
  omega

variable [CommRing N]

theorem Bounded.grow (hb : s.Bounded cfg h) (g : Grow cfg s t) : t.Bounded cfg h := by
  have hinflight := hb.inflight
  have hwithin := hb.within
  unfold Counters.total at hwithin
  cases g with
  | accept data plain counters hopen hdata hroom =>
    rw [accept_eq]
    cases plain with
    | true =>
      obtain ⟨hfits,rfl⟩ := tryReserveLimitBytes_some hroom
      unfold Counters.total at hfits
      refine ⟨?_,?_⟩
      · simp [hinflight, Post.hand, Hand.reserved, newItem, TrackedBuffer.size]
        omega
      · unfold Counters.total
        dsimp only
        omega
    | false =>
      obtain ⟨hfits,rfl⟩ := tryReserveWriteBytesLocked_some hroom
      unfold Counters.total at hfits
      refine ⟨by simp [hinflight, Post.hand, Hand.reserved],?_⟩
      unfold Counters.total
      dsimp only
      omega
  | wake | reset | set | aside => exact ⟨hb.inflight,hb.within⟩
  | halt | endWait =>
    rw [endWait_eq]
    exact ⟨hb.inflight,hb.within⟩
  | post post hhand =>
    refine hb.shrink ?_ rfl le_rfl le_rfl rfl
    simp [Session.post, hhand, Hand.reserved]
  | complete =>
    refine hb.shrink ?_ rfl le_rfl le_rfl rfl
    simp [Session.post, Post.hand, Hand.reserved]

theorem Bounded.move (hb : s.Bounded cfg h) (m : Move cfg (s,h) (t,k)) : t.Bounded cfg k := by
  have hinflight := hb.inflight
  have hwithin := hb.within
  have hlimit := cfg.bpLimit_lt
  unfold Counters.total at hwithin
  -- a reservation that is routed or given up was in flight
  have hrouted : ∀ {item}, h = .plain item → item.size ≤ s.counters.inflightBytes ∧
      s.counters.inflightBytes - item.size = totalBytes (plains s.queue) := by
    rintro item rfl
    simp only [Hand.reserved, totalBytes_cons, totalBytes_nil] at hinflight
    omega
  cases m with
  | grow s t h g => exact hb.grow g
  | take s post rest hqueue =>
    refine ⟨?_,hb.within⟩
    rw [hqueue, plains_cons, totalBytes_append] at hinflight
    exact hinflight.trans (by simp [Hand.reserved]; omega)
  | emit | dropCallbacks | activate => exact ⟨hb.inflight,hb.within⟩
  | enqueueTried | begin | handOver | ignore | confirm | rest | leave =>
    exact hb.shrink rfl rfl le_rfl le_rfl rfl
  | forget s item | refuse s item =>
    obtain ⟨hle,heq⟩ := hrouted rfl
    refine ⟨?_,?_⟩
    · rw [releaseReservedLimitBytes, release_eq]
      exact heq
    · rw [releaseReservedLimitBytes, release_eq]
      unfold Counters.total
      dsimp only
      omega
  | forgetTried | release =>
    refine hb.shrink rfl rfl ?_ le_rfl rfl
    rw [releaseReservedWriteBytes, release_eq]
    exact Nat.sub_le _ _
  | park s item =>
    obtain ⟨hle,heq⟩ := hrouted rfl
    have hadd : add s.counters.pendingBytes item.size = s.counters.pendingBytes + item.size := add_eq (by omega)
    rw [commitReservedLimitBytes, release_eq, hadd]
    refine ⟨heq,?_⟩
    unfold Counters.total
    dsimp only
    omega
  | enqueue s item =>
    obtain ⟨hle,heq⟩ := hrouted rfl
    have hadd : add s.counters.queueBytes item.size = s.counters.queueBytes + item.size := add_eq (by omega)
    rw [commitReservedLimitBytes, release_eq, hadd]
    refine ⟨heq,?_⟩
    unfold Counters.total
    dsimp only
    omega
  | relieve s h =>
    have hadd : add s.counters.queueBytes s.counters.pendingBytes =
      s.counters.queueBytes + s.counters.pendingBytes := add_eq (by omega)
    rw [relieved_eq, hadd]
    refine ⟨hb.inflight,?_⟩
    unfold Counters.total
    dsimp only
    omega
  | throwing | fail =>
    rw [lost_eq]
    exact hb.shrink rfl rfl le_rfl le_rfl rfl
  | shut =>
    rw [shut_eq]
    exact hb.shrink rfl rfl (Nat.zero_le _) (Nat.zero_le _) rfl

theorem Counted.grow (hc : s.Counted h) (g : Grow cfg s t) : t.Counted h := by
  obtain ⟨hqueue,hpending⟩ := hc
  cases g with
  | accept data plain counters hopen hdata hroom =>
    rw [accept_eq]
    cases plain with
    | true =>
      obtain ⟨-,rfl⟩ := tryReserveLimitBytes_some hroom
      exact ⟨by simp [hqueue, held, Post.hand, Hand.counted],hpending⟩
    | false =>
      obtain ⟨-,rfl⟩ := tryReserveWriteBytesLocked_some hroom
      refine ⟨?_,hpending⟩
      simp [hqueue, held, Post.hand, Hand.counted, newItem, TrackedBuffer.size]
      omega
  | wake | reset | set | aside => exact ⟨hqueue,hpending⟩
  | halt | endWait =>
    rw [endWait_eq]
    exact ⟨hqueue,hpending⟩
  | post post hhand => exact ⟨by simp [Session.post, hqueue, held, hhand, Hand.counted],hpending⟩
  | complete => exact ⟨by simp [Session.post, hqueue, held, Post.hand, Hand.counted],hpending⟩

/-- Until the session is closing its counters stay exact. -/
theorem Counted.move (hb : s.Bounded cfg h) (hp : s.Phase h) (hc : s.closing = false → s.Counted h)
    (m : Move cfg (s,h) (t,k)) (hopen : t.closing = false) : t.Counted k := by
  have hinflight := hb.inflight
  have hwithin := hb.within
  have hlimit := cfg.bpLimit_lt
  unfold Counters.total at hwithin
  have hrouted : ∀ {item}, h = .plain item → item.size ≤ s.counters.inflightBytes := by
    rintro item rfl
    simp only [Hand.reserved, totalBytes_cons, totalBytes_nil] at hinflight
    omega
  cases m with
  | grow s t h g =>
    have hstill : s.closing = false := by
      by_contra hs
      rw [g.kept.closing (by simpa using hs)] at hopen
      cases hopen
    exact (hc hstill).grow g
  | take s post rest hqueue =>
    obtain ⟨hq,hpd⟩ := hc hopen
    refine ⟨hq.trans ?_,hpd⟩
    simp only [held, hqueue, tries_cons, totalBytes_append, Hand.counted, totalBytes_nil]
    omega
  | emit | dropCallbacks | activate => exact ⟨(hc hopen).queue,(hc hopen).pending⟩
  | forget s item hclosing | forgetTried s item hclosing | ignore s k hclosing =>
    rw [show s.closing = false from hopen] at hclosing
    cases hclosing
  | refuse s item hfull => exact absurd hfull hb.not_refused
  | park s item =>
    obtain ⟨hq,hpd⟩ := hc hopen
    have hle := hrouted rfl
    have hadd : add s.counters.pendingBytes item.size = s.counters.pendingBytes + item.size := add_eq (by omega)
    exact ⟨hq,hadd.trans (by simp [hpd])⟩
  | enqueue s item =>
    obtain ⟨hq,hpd⟩ := hc hopen
    have hle := hrouted rfl
    have hadd : add s.counters.queueBytes item.size = s.counters.queueBytes + item.size := add_eq (by omega)
    refine ⟨hadd.trans ?_,hpd⟩
    simp [hq, held, Hand.counted]
    omega
  | enqueueTried s item =>
    obtain ⟨hq,hpd⟩ := hc hopen
    refine ⟨hq.trans ?_,hpd⟩
    simp [held, Hand.counted]
    omega
  | relieve s h =>
    rw [relieved_eq] at hopen ⊢
    obtain ⟨hq,hpd⟩ := hc hopen
    have hadd : add s.counters.queueBytes s.counters.pendingBytes =
      s.counters.queueBytes + s.counters.pendingBytes := add_eq (by omega)
    refine ⟨hadd.trans ?_,rfl⟩
    simp [hq, hpd, held]
    omega
  | begin s hisOpen htx hwriting =>
    obtain ⟨hq,hpd⟩ := hc hopen
    have hidle : s.currentWriteBatch = [] := by
      rcases hp hopen with ⟨-,-,hidle⟩ | ⟨hbusy,-⟩
      · exact hidle
      · rw [hwriting] at hbusy
        cases hbusy
    have hsplit := congrArg totalBytes (takeGatherBatch_append s.tx).1
    rw [totalBytes_append] at hsplit
    refine ⟨hq.trans ?_,hpd⟩
    simp [held, begun, hidle, Hand.counted]
    omega
  | handOver =>
    obtain ⟨hq,hpd⟩ := hc hopen
    exact ⟨hq,hpd⟩
  | throwing | fail =>
    rw [lost_eq] at hopen
    cases hopen
  | confirm s bytesToWrite confirmed =>
    obtain ⟨hq,hpd⟩ := hc hopen
    refine ⟨hq.trans ?_,hpd⟩
    simp [held, settled, Hand.counted]
    omega
  | release s buffers =>
    obtain ⟨hq,hpd⟩ := hc hopen
    refine ⟨?_,hpd⟩
    rw [releaseReservedWriteBytes, release_eq]
    simp [hq, held, Hand.counted]
    omega
  | rest | leave =>
    obtain ⟨hq,hpd⟩ := hc hopen
    exact ⟨hq,hpd⟩
  | shut =>
    rw [shut_eq] at hopen
    cases hopen

omit [CommRing N] in
/-- What holds between two moves of a session. -/
structure Metered (cfg : Config) (s : Session N) (h : Hand) : Prop where
  running : s.Running h
  phase : s.Phase h
  bounded : s.Bounded cfg h
  counted : s.closing = false → s.Counted h

theorem Metered.move (p q : Session N × Hand) (hm : p.1.Metered cfg p.2) (m : Move cfg p q) : q.1.Metered cfg q.2 where
  running := hm.running.move _ _ m
  phase := hm.phase.move _ _ m
  bounded := hm.bounded.move m
  counted := Counted.move hm.bounded hm.phase hm.counted m

theorem new_metered (cfg : Config) : (new : Session N).Metered cfg .empty :=
  ⟨new_running,new_phase,⟨rfl,Nat.zero_le _⟩,fun _ => ⟨rfl,rfl⟩⟩

/-- In every run, whatever calls and completions fall between and into the handlers: the
bytes in flight are those of plain writes on the strand, and all bytes keep the limit. Until
the session is closing the other counters are exact as well. -/
theorem run_counters_sound (cfg : Config) (ops : List StepOp) :
    let s : Session N := new.run cfg ops
    s.counters.inflightBytes = totalBytes (plains s.queue) ∧
    s.counters.queueBytes + s.counters.pendingBytes + s.counters.inflightBytes ≤ cfg.bpLimit ∧
    (s.closing = false →
      s.counters.queueBytes = totalBytes (s.tx ++ s.currentWriteBatch ++ tries s.queue) ∧
      s.counters.pendingBytes = totalBytes s.pending) := by
  have hm : (new.run cfg ops : Session N).Metered cfg .empty :=
    Path.induct Metered.move (new_metered cfg) (run_path ops)
  refine ⟨hm.bounded.inflight,hm.bounded.within,fun hopen => ?_⟩
  obtain ⟨hqueue,hpending⟩ := hm.counted hopen
  refine ⟨hqueue.trans ?_,hpending⟩
  rw [held]
  exact congrArg totalBytes (List.append_nil _)

end Session
end Wirestead.Transport.ServerSession
