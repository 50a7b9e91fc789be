import Wirestead.Transport.UdpChannel.Handlers

/-! # The counters of a UDP channel are exact

The bytes behind `queue_bytes_` are in `tx_`, at the socket, in the posts of nonblocking
writes and in the hand of a handler; the posts of plain writes are in flight. The same
holds of the statistics of each session, until the channel ends in an error.
-/
namespace Wirestead.Transport.UdpChannel
open Diagnostics Sizes TcpClient

theorem Config.bpLimit_lt (cfg : Config) : cfg.bpLimit < modulus := by
  have hhigh := cfg.threshold_le
  have hmax : maxBufferSize < modulus := by decide
  have hmin := min_le_right (max (cfg.bpHigh * 4) defaultBackpressureThreshold) maxBufferSize
  unfold Config.bpLimit Config.bpHigh modulus at *
  dsimp only
  split_ifs <;> omega

def Post.item? : Post → Option TxItem
  | .write handler => handler.item?
  | .expire _ _ => none

def Post.plain? : Post → Option TxItem
  | .write (.enqueue item _) => some item
  | _ => none

def Post.tried? : Post → Option TxItem
  | .write (.tryEnqueue item _) => some item
  | _ => none

/-- The datagrams of plain writes that wait on the strand. -/
def plains (queue : List Post) : List TxItem := queue.filterMap Post.plain?

/-- Those of nonblocking writes. -/
def tries (queue : List Post) : List TxItem := queue.filterMap Post.tried?

@[simp] theorem plains_append (queue more : List Post) : plains (queue ++ more) = plains queue ++ plains more :=
  List.filterMap_append

@[simp] theorem tries_append (queue more : List Post) : tries (queue ++ more) = tries queue ++ tries more :=
  List.filterMap_append

/-- What a handler has taken up and `queue_bytes_` counts. -/
def Hand.counted : Hand → List TxItem
  | .tried item => [item]
  | .current item => [item]
  | .sent item => [item]
  | _ => []

def Hand.reserved : Hand → List TxItem
  | .posted item => [item]
  | _ => []

theorem plains_cons (post : Post) (rest : List Post) : plains (post :: rest) = post.hand.reserved ++ plains rest := by
  cases post with
  | write handler => cases handler <;> rfl
  | expire => rfl

theorem tries_cons (post : Post) (rest : List Post) : tries (post :: rest) = post.hand.counted ++ tries rest := by
  cases post with
  | write handler => cases handler <;> rfl
  | expire => rfl

@[simp] theorem plains_singleton (post : Post) : plains [post] = post.hand.reserved := by
  rw [plains_cons]
  exact List.append_nil _

@[simp] theorem tries_singleton (post : Post) : tries [post] = post.hand.counted := by
  rw [tries_cons]
  exact List.append_nil _

/-- The `queued` of every session with statistics. -/
def Counts (waits : List UdpWriteWait) (f : ℕ → ℕ) : Prop :=
  ∀ i w, waits[i]? = some w → w.accounting.isSome = true → w.queued = f i

namespace Counts
variable {waits : List UdpWriteWait} {f : ℕ → ℕ}

theorem congr (h : Counts waits f) {f' : ℕ → ℕ} (hf : ∀ i, f i = f' i) : Counts waits f' :=
  fun i w hw ht => (h i w hw ht).trans (hf i)

theorem recount (h : Counts waits f) (g : ℕ → ℕ → ℕ) : Counts (recount waits g) (fun i => g i (f i)) := by
  intro i w hw ht
  rw [getElem?_recount, Option.map_eq_some_iff] at hw
  obtain ⟨v,hv,rfl⟩ := hw
  cases hacc : v.accounting with
  | none => simp [hacc] at ht
  | some group => simp [h i v hv (by simp [hacc])]

theorem ends (h : Counts waits f) {waits' : List UdpWriteWait}
    (hends : List.Forall₂ (fun w w' => w' = w ∨ ∃ reason, w' = UdpWriteWait.end w reason) waits waits') :
    Counts waits' f := by
  intro i w hw ht
  obtain ⟨hi,rfl⟩ := List.getElem?_eq_some_iff.mp hw
  have hlength := hends.length_eq
  have hi' : i < waits.length := by omega
  have hget := (List.forall₂_iff_get.mp hends).2 i hi' hi
  simp only [List.get_eq_getElem] at hget
  have hv := h i waits[i] (List.getElem?_eq_getElem hi')
  rcases hget with heq | ⟨reason,heq⟩
  · rw [heq] at ht ⊢
    exact hv ht
  · rw [heq] at ht ⊢
    unfold UdpWriteWait.end at ht ⊢
    split_ifs at ht ⊢ <;> exact hv ht

/-- A session that nobody has used counts nothing. -/
theorem capture (h : Counts waits f) {w : UdpWriteWait} (hw : w.queued = 0) (hf : f waits.length = 0) :
    Counts (waits ++ [w]) f := by
  intro i v hv ht
  rw [List.getElem?_append] at hv
  split_ifs at hv with hi
  · exact h i v hv ht
  · have hlast : i = waits.length := by
      by_contra hne
      rw [List.getElem?_eq_none (by simp; omega)] at hv
      cases hv
    subst hlast
    simp at hv
    rw [← hv, hw, hf]

end Counts

namespace Strand
variable {N : Type*} {cfg : Config} {s t : Strand N} {h k : Hand}

/-- What `queue_bytes_` counts. -/
def held (s : Strand N) (h : Hand) : List TxItem :=
  s.channel.tx ++ s.channel.sending ++ tries s.queue ++ h.counted

/-- Reserved bytes are of posts that have not been routed, and all bytes fit. -/
structure Bounded (cfg : Config) (s : Strand N) (h : Hand) : Prop where
  inflight : s.channel.counters.inflightBytes = bytes (plains s.queue) + bytes h.reserved
  within : s.channel.counters.total ≤ cfg.bpLimit

/-- The counters of the channel and of its sessions are the bytes behind them. -/
structure Counted (s : Strand N) (h : Hand) : Prop where
  queue : s.channel.counters.queueBytes = bytes (s.held h)
  pending : s.channel.counters.pendingBytes = bytes s.channel.pending
  sessions : Counts s.channel.writeWaits (fun i => load i (s.held h))
  parked : ∀ i, s.parked i = load i s.channel.pending

/-- Every datagram that is still counted. -/
def items (s : Strand N) (h : Hand) : List TxItem :=
  s.held h ++ s.channel.pending ++ plains s.queue ++ h.reserved

/-- The sessions of the datagrams have been captured. -/
def Known (s : Strand N) (h : Hand) : Prop :=
  ∀ item ∈ s.items h, ∀ i, item.session = some i → i < s.channel.writeWaits.length

theorem load_eq_zero {i : ℕ} {items : List TxItem} (h : ∀ item ∈ items, item.session ≠ some i) : load i items = 0 := by
  unfold load
  rw [List.filter_eq_nil_iff.mpr (by simpa using h)]
  rfl

theorem Known.subset (hk : s.Known h) (hlength : s.channel.writeWaits.length ≤ t.channel.writeWaits.length)
    (hsub : ∀ item ∈ t.items k, item ∈ s.items h) : t.Known k :=
  fun item hi i hs => lt_of_lt_of_le (hk item (hsub item hi) i hs) hlength

/-- What a handler is to route is in flight. -/
theorem Bounded.reserved_le {item : TxItem} (hb : s.Bounded cfg (.posted item)) :
    item.size ≤ s.channel.counters.inflightBytes := by
  have hinflight := hb.inflight
  simp only [Hand.reserved, bytes_cons, bytes_nil] at hinflight
  omega

/-- A datagram that leaves the queue gives back what it counts. -/
theorem Counted.dropQueued (hc : s.Counted h) {item : TxItem}
    (hbytes : bytes (s.held h) = item.size + bytes (t.held k))
    (hload : ∀ i, load i (s.held h) = load i [item] + load i (t.held k))
    (hqueue : t.channel.counters.queueBytes = s.channel.counters.queueBytes - item.size)
    (hpending : t.channel.counters.pendingBytes = s.channel.counters.pendingBytes)
    (hparked : t.channel.pending = s.channel.pending ∧ t.parked = s.parked)
    (hwaits : t.channel.writeWaits = UdpChannel.recount s.channel.writeWaits (fun i q => q - load i [item])) :
    t.Counted k := by
  have hcount := hc.sessions.recount (fun i q => q - load i [item])
  rw [← hwaits] at hcount
  refine ⟨?_,?_,hcount.congr (fun i => ?_),?_⟩
  · rw [hqueue, hc.queue, hbytes, Nat.add_sub_cancel_left]
  · rw [hpending, hparked.1, hc.pending]
  · rw [hload, Nat.add_sub_cancel_left]
  · rw [hparked.1, hparked.2]
    exact hc.parked

/-- Datagrams change hands, and nothing is counted anew. -/
theorem Counted.rehand (hc : s.Counted h) (hbytes : bytes (t.held k) = bytes (s.held h))
    (hload : ∀ i, load i (t.held k) = load i (s.held h)) (hcounters : t.channel.counters = s.channel.counters)
    (hwaits : t.channel.writeWaits = s.channel.writeWaits)
    (hparked : t.channel.pending = s.channel.pending ∧ t.parked = s.parked) : t.Counted k := by
  refine ⟨?_,?_,?_,?_⟩
  · rw [hcounters, hbytes]
    exact hc.queue
  · rw [hcounters, hparked.1]
    exact hc.pending
  · rw [hwaits]
    exact hc.sessions.congr (fun i => (hload i).symm)
  · rw [hparked.1, hparked.2]
    exact hc.parked

theorem Counted.take (hc : s.Counted .empty) {post : Post} {rest : List Post} (hqueue : s.queue = post :: rest) :
    Counted { s with queue := rest } post.hand := by
  refine hc.rehand ?_ (fun i => ?_) rfl rfl ⟨rfl,rfl⟩
  · simp only [held, hqueue, tries_cons, bytes_append, Hand.counted, bytes_nil]
    omega
  · simp only [held, hqueue, tries_cons, load_append, Hand.counted, load_nil]
    omega

theorem Counted.takeSent (hc : s.Counted .empty) {item : TxItem} {rest : List TxItem}
    (hsending : s.channel.sending = item :: rest) : Counted { s with channel.sending := rest } (.sent item) := by
  refine hc.rehand ?_ (fun i => ?_) rfl rfl ⟨rfl,rfl⟩
  · simp [held, hsending, Hand.counted]
    omega
  · simp [held, hsending, Hand.counted]
    omega

/-- A plain write goes to `pending_`. -/
theorem Counted.park {item : TxItem} (hc : s.Counted (.posted item)) (hb : s.Bounded cfg (.posted item)) :
    (s.parkedWith item).Counted .empty := by
  have hle := hb.reserved_le
  have hwithin := hb.within
  have hlimit := cfg.bpLimit_lt
  unfold Counters.total at hwithin
  have hadd : add s.channel.counters.pendingBytes item.size = s.channel.counters.pendingBytes + item.size :=
    add_eq (by omega)
  obtain ⟨hq,hp,hs,hpk⟩ := hc
  rw [parkedWith_eq]
  refine ⟨hq,hadd.trans (by simp [hp]),hs,fun i => ?_⟩
  simp only [hpk i, load_append, load_cons, load_nil]
  split_ifs <;> omega

/-- A plain write goes to `tx_`. -/
theorem Counted.enqueue {item : TxItem} (hc : s.Counted (.posted item)) (hb : s.Bounded cfg (.posted item)) :
    (s.queuedWith item).Counted .empty := by
  have hle := hb.reserved_le
  have hwithin := hb.within
  have hlimit := cfg.bpLimit_lt
  unfold Counters.total at hwithin
  have hadd : add s.channel.counters.queueBytes item.size = s.channel.counters.queueBytes + item.size :=
    add_eq (by omega)
  obtain ⟨hq,hp,hs,hpk⟩ := hc
  have hcount := hs.recount (fun i q => if item.session = some i then q + item.size else q)
  rw [queuedWith_eq]
  refine ⟨hadd.trans ?_,hp,hcount.congr (fun i => ?_),hpk⟩
  · simp [hq, held, Hand.counted]
    omega
  · simp only [held, load_append, load_cons, load_nil, Hand.counted]
    split_ifs <;> omega

theorem Counted.enqueueTried {item : TxItem} (hc : s.Counted (.tried item)) :
    Counted { s with channel.tx := s.channel.tx ++ [item] } .empty := by
  refine hc.rehand ?_ (fun i => ?_) rfl rfl ⟨rfl,rfl⟩
  · simp [held, Hand.counted]
    omega
  · simp [held, Hand.counted]
    omega

/-- The pending datagrams move up. -/
theorem Counted.relieve (hc : s.Counted h) (hb : s.Bounded cfg h) : s.relieved.Counted h := by
  have hwithin := hb.within
  have hlimit := cfg.bpLimit_lt
  unfold Counters.total at hwithin
  have hadd : add s.channel.counters.queueBytes s.channel.counters.pendingBytes =
    s.channel.counters.queueBytes + s.channel.counters.pendingBytes := add_eq (by omega)
  obtain ⟨hq,hp,hs,hpk⟩ := hc
  have hcount := hs.recount (fun i q => q + load i s.channel.pending)
  rw [relieved_eq]
  refine ⟨hadd.trans ?_,rfl,hcount.congr (fun i => ?_),fun i => ?_⟩
  · simp [hq, hp, held]
    omega
  · simp [held]
    omega
  · simp [hpk i]

theorem Counted.pick (hc : s.Counted .empty) {item : TxItem} {rest : List TxItem} (htx : s.channel.tx = item :: rest) :
    Counted { s with channel.tx := rest } (.current item) := by
  refine hc.rehand ?_ (fun i => ?_) rfl rfl ⟨rfl,rfl⟩
  · simp [held, htx, Hand.counted]
    omega
  · simp [held, htx, Hand.counted]
    omega

/-- The socket is idle when it is handed a datagram. -/
theorem Counted.handOver {item : TxItem} (hc : s.Counted (.current item)) (hidle : s.channel.sending = [])
    (ledger : Ledger N) (events : List Event) :
    Counted { s with channel.ledger := ledger
                     channel.sending := [item]
                     writing := true
                     events := events } .empty := by
  refine hc.rehand ?_ (fun i => ?_) rfl rfl ⟨rfl,rfl⟩
  · simp [held, hidle, Hand.counted]
    omega
  · simp [held, hidle, Hand.counted]
    omega

/-- A datagram that a handler holds is dropped, or its send has completed. -/
theorem Counted.drop {item : TxItem} (hc : s.Counted h) (hcounted : h.counted = [item]) (hnone : k.counted = []) :
    (s.dropQueued item).Counted k := by
  rw [dropQueued_eq]
  refine hc.dropQueued ?_ (fun i => ?_) rfl rfl ⟨rfl,rfl⟩ rfl
  · simp [held, hcounted, hnone]
    omega
  · simp [held, hcounted, hnone]
    omega

theorem Counted.dropDead (hc : s.Counted h) {item : TxItem} {rest : List TxItem} (htx : s.channel.tx = item :: rest) :
    (Strand.dropQueued { s with channel.tx := rest } item).Counted h := by
  rw [dropQueued_eq]
  refine hc.dropQueued ?_ (fun i => ?_) rfl rfl ⟨rfl,rfl⟩ rfl
  · simp [held, htx]
  · simp [held, htx]

/-- A session that has expired takes its datagrams along. -/
theorem Counted.discard {session : ℕ} (hc : s.Counted (.expiring session)) :
    (s.discardSessionQueue session).Counted .empty := by
  have hsplit : ∀ items : List TxItem, bytes (items.filter (·.session = some session)) +
      bytes (items.filter (·.session ≠ some session)) = bytes items := by
    intro items
    simpa using bytes_filter_add (·.session = some session) items
  have hload : ∀ i (items : List TxItem), load i (items.filter (·.session = some session)) +
      load i (items.filter (·.session ≠ some session)) = load i items := by
    intro i items
    simpa using load_filter_add i (·.session = some session) items
  obtain ⟨hq,hp,hs,hpk⟩ := hc
  have hcount := hs.recount (fun i q => q - load i (s.channel.tx.filter (·.session = some session)))
  rw [discardSessionQueue_eq]
  refine ⟨?_,?_,hcount.congr (fun i => ?_),fun i => ?_⟩
  · have htx := hsplit s.channel.tx
    simp only [hq, held, bytes_append, Hand.counted, bytes_nil]
    omega
  · have hpending := hsplit s.channel.pending
    simp only [hp]
    omega
  · have htx := hload i s.channel.tx
    simp only [held, load_append, Hand.counted, load_nil]
    omega
  · have hpending := hload i s.channel.pending
    simp only [hpk i]
    omega

variable [CommRing N]

/-- A call adds the datagram that it admits. -/
theorem Known.grow (hk : s.Known h) (g : Grow cfg s t) : t.Known h := by
  have hnew : ∀ {u : Strand N} {data : List UInt8} {destination : Option Endpoint} {session : Option ℕ}
      (storage : Storage), s.Admits data destination session →
      (∀ item ∈ u.items h, item ∈ s.items h ∨ item = s.newItem data storage destination session) →
      u.channel.writeWaits.length = s.channel.writeWaits.length → u.Known h := by
    intro u data destination session storage hadmits hitems hlength item hi i hs
    rw [hlength]
    rcases hitems item hi with hold | rfl
    · exact hk item hold i hs
    · exact hadmits.known i hs
  cases g with
  | capture => exact hk.subset (by simp) (fun _ => id)
  | endWaits waits hends => exact hk.subset hends.length_eq.le (fun _ => id)
  | expire session wait group hwait hgroup =>
    rw [expireSession_eq hwait hgroup]
    refine hk.subset (by simp) ?_
    simp [items, held, plains, tries, Post.plain?, Post.tried?]
  | accept data storage destination session counters hadmits hroom =>
    rw [admitted_eq _ _ _ _ _ _ _ (fun _ _ => rfl)]
    refine hnew storage hadmits ?_ rfl
    simp only [items, held, plains_append, tries_append, List.mem_append]
    grind [plains, tries, Post.plain?, Post.tried?]
  | tryAdmit data storage destination session counters hadmits hroom =>
    rw [admitted_eq _ _ _ _ _ _ _ (fun _ _ => rfl), tallyQueued_eq]
    refine hnew storage hadmits ?_ (by simp)
    simp only [items, held, plains_append, tries_append, List.mem_append]
    grind [plains, tries, Post.plain?, Post.tried?]
  | refuseOversized =>
    refine hk.subset le_rfl ?_
    simp [items, held, plains, tries, Post.plain?, Post.tried?]
  | turn => exact hk.subset le_rfl (fun _ => id)

/-- A handler takes up what is there. -/
theorem Known.move (hk : s.Known h) (m : Move cfg (s,h) (t,k)) : t.Known k := by
  cases m with
  | grow s t h g => exact hk.grow g
  | take s post rest hqueue =>
    refine hk.subset le_rfl ?_
    simp only [items, held, hqueue, plains_cons, tries_cons, List.mem_append]
    tauto
  | takeSent s item rest hsending =>
    refine hk.subset le_rfl ?_
    grind [items, held, Hand.counted, Hand.reserved]
  | forget | refuse =>
    refine hk.subset le_rfl ?_
    grind [items, held, Hand.counted, Hand.reserved]
  | park s item =>
    rw [parkedWith_eq]
    refine hk.subset le_rfl ?_
    grind [items, held, Hand.counted, Hand.reserved]
  | enqueue s item =>
    rw [queuedWith_eq]
    refine hk.subset (by simp) ?_
    grind [items, held, Hand.counted, Hand.reserved]
  | enqueueTried =>
    refine hk.subset le_rfl ?_
    grind [items, held, Hand.counted, Hand.reserved]
  | dropTried | dropCurrent | dropUnroutable =>
    rw [dropQueued_eq]
    refine hk.subset (by simp) ?_
    grind [items, held, Hand.counted, Hand.reserved]
  | activate => exact hk.subset le_rfl (fun _ => id)
  | relieve =>
    rw [relieved_eq]
    refine hk.subset (by simp) ?_
    simp only [items, held, List.mem_append]
    tauto
  | dropDead s h item rest htx =>
    rw [dropQueued_eq]
    refine hk.subset (by simp) ?_
    grind [items, held]
  | pick s item rest htx =>
    refine hk.subset le_rfl ?_
    grind [items, held, Hand.counted, Hand.reserved]
  | handOver =>
    refine hk.subset le_rfl ?_
    grind [items, held, Hand.counted, Hand.reserved]
  | throwing =>
    rw [ended_eq, thrown_eq]
    refine hk.subset (by simp) ?_
    grind [items, held, Hand.counted, Hand.reserved]
  | complete | fail =>
    rw [dropQueued_eq]
    refine hk.subset (by simp [Channel.failWrites]) ?_
    grind [items, held, Hand.counted, Hand.reserved, Channel.failWrites]
  | discard =>
    rw [discardSessionQueue_eq]
    refine hk.subset (by simp) ?_
    grind [items, held, Hand.counted, Hand.reserved]
  | error =>
    rw [ended_eq]
    refine hk.subset (by simp) ?_
    grind [items, held]
  | clear =>
    rw [cleared_eq]
    refine hk.subset (by simp) ?_
    grind [items, held]
  | rest =>
    refine hk.subset le_rfl ?_
    grind [items, held, Hand.counted, Hand.reserved]

theorem tryReserveLimitBytes_some {c counters : Counters} {size : ℕ}
    (hroom : tryReserveLimitBytes c size cfg.bpLimit = some (true,counters)) :
    c.total + size ≤ cfg.bpLimit ∧ counters = { c with inflightBytes := c.inflightBytes + size } := by
  rw [tryReserveLimitBytes_eq cfg.bpLimit_lt] at hroom
  split_ifs at hroom with hfits
  · cases hroom
    exact ⟨hfits.2,rfl⟩
  · cases hroom

theorem tryReserveWriteBytesLocked_some {c counters : Counters} {active : Bool} {size : ℕ}
    (hroom : tryReserveWriteBytesLocked c active size cfg.bpHigh cfg.bpLimit = some (true,counters)) :
    c.total + size ≤ cfg.bpLimit ∧ active = false ∧ counters = { c with queueBytes := c.queueBytes + size } := by
  rw [tryReserveWriteBytesLocked_eq cfg.bpLimit_lt] at hroom
  split_ifs at hroom with hfits
  · cases hroom
    exact ⟨hfits.2.2.2,hfits.2.1,rfl⟩
  · cases hroom

theorem Bounded.grow (hb : s.Bounded cfg h) (g : Grow cfg s t) : t.Bounded cfg h := by
  obtain ⟨hinflight,hwithin⟩ := hb
  unfold Counters.total at hwithin
  cases g with
  | capture | endWaits | turn => exact ⟨hinflight,hwithin⟩
  | expire session wait group hwait hgroup =>
    rw [expireSession_eq hwait hgroup]
    exact ⟨by simp [hinflight, Post.hand, Hand.reserved],hwithin⟩
  | accept data storage destination session counters hadmits hroom =>
    obtain ⟨hfits,rfl⟩ := tryReserveLimitBytes_some hroom
    unfold Counters.total at hfits
    rw [admitted_eq _ _ _ _ _ _ _ (fun _ _ => rfl)]
    refine ⟨?_,?_⟩
    · simp [hinflight, Post.hand, Hand.reserved, newItem, TxItem.size]
      omega
    · unfold Counters.total
      dsimp only
      omega
  | tryAdmit data storage destination session counters hadmits hroom =>
    obtain ⟨hfits,-,rfl⟩ := tryReserveWriteBytesLocked_some hroom
    unfold Counters.total at hfits
    rw [admitted_eq _ _ _ _ _ _ _ (fun _ _ => rfl), tallyQueued_eq]
    refine ⟨by simp [hinflight, Post.hand, Hand.reserved],?_⟩
    unfold Counters.total
    dsimp only
    omega
  | refuseOversized => exact ⟨by simp [hinflight, Post.hand, Hand.reserved],hwithin⟩

omit [CommRing N] in
/-- Releasing what is queued keeps within the limit. -/
theorem Bounded.shrink (hb : s.Bounded cfg h) (hposts : t.queue = s.queue) (hhand : bytes k.reserved = bytes h.reserved)
    (hqueue : t.channel.counters.queueBytes ≤ s.channel.counters.queueBytes)
    (hpending : t.channel.counters.pendingBytes ≤ s.channel.counters.pendingBytes)
    (hinflight : t.channel.counters.inflightBytes = s.channel.counters.inflightBytes) : t.Bounded cfg k := by
  have hwithin := hb.within
  unfold Counters.total at hwithin
  refine ⟨by rw [hinflight, hposts, hhand, hb.inflight],?_⟩
  unfold Counters.total
  omega

theorem Bounded.move (hb : s.Bounded cfg h) (m : Move cfg (s,h) (t,k)) : t.Bounded cfg k := by
  have hinflight := hb.inflight
  have hwithin := hb.within
  have hlimit := cfg.bpLimit_lt
  unfold Counters.total at hwithin
  -- a reservation that is routed or given up was in flight
  have hrouted : ∀ {item}, h = .posted item → item.size ≤ s.channel.counters.inflightBytes ∧
      s.channel.counters.inflightBytes - item.size = bytes (plains s.queue) := by
    rintro item rfl
    simp only [Hand.reserved, bytes_cons, bytes_nil] at hinflight
    omega
  cases m with
  | grow s t h g => exact hb.grow g
  | take s post rest hqueue =>
    refine ⟨?_,hb.within⟩
    rw [hqueue, plains_cons, bytes_append] at hinflight
    exact hinflight.trans (by simp [Hand.reserved]; omega)
  | takeSent | enqueueTried | activate | pick | handOver | rest => exact ⟨hb.inflight,hb.within⟩
  | forget | refuse =>
    obtain ⟨hle,heq⟩ := hrouted rfl
    refine ⟨?_,?_⟩
    · rw [releaseReservedLimitBytes, release_eq]
      exact heq
    · rw [releaseReservedLimitBytes, release_eq]
      unfold Counters.total
      dsimp only
      omega
  | park s item =>
    obtain ⟨hle,heq⟩ := hrouted rfl
    have hadd : add s.channel.counters.pendingBytes item.size = s.channel.counters.pendingBytes + item.size :=
      add_eq (by omega)
    rw [parkedWith_eq, commitReservedLimitBytes, release_eq, hadd]
    refine ⟨heq,?_⟩
    unfold Counters.total
    dsimp only
    omega
  | enqueue s item =>
    obtain ⟨hle,heq⟩ := hrouted rfl
    have hadd : add s.channel.counters.queueBytes item.size = s.channel.counters.queueBytes + item.size :=
      add_eq (by omega)
    rw [queuedWith_eq, commitReservedLimitBytes, release_eq, hadd]
    refine ⟨heq,?_⟩
    unfold Counters.total
    dsimp only
    omega
  | dropTried | dropCurrent | dropUnroutable | dropDead | complete | fail =>
    rw [dropQueued_eq]
    exact hb.shrink rfl rfl (Nat.sub_le _ _) le_rfl rfl
  | relieve =>
    have hadd : add s.channel.counters.queueBytes s.channel.counters.pendingBytes =
      s.channel.counters.queueBytes + s.channel.counters.pendingBytes := add_eq (by omega)
    rw [relieved_eq, hadd]
    refine ⟨hb.inflight,?_⟩
    unfold Counters.total
    dsimp only
    omega
  | throwing =>
    rw [ended_eq, thrown_eq]
    exact hb.shrink rfl rfl (Nat.zero_le _) (Nat.zero_le _) rfl
  | discard =>
    rw [discardSessionQueue_eq]
    exact hb.shrink rfl rfl (Nat.sub_le _ _) (Nat.sub_le _ _) rfl
  | error =>
    rw [ended_eq]
    exact hb.shrink rfl rfl (Nat.zero_le _) (Nat.zero_le _) rfl
  | clear =>
    rw [cleared_eq]
    exact hb.shrink rfl rfl (Nat.zero_le _) (Nat.zero_le _) rfl

theorem Counted.grow (hc : s.Counted h) (hk : s.Known h) (g : Grow cfg s t) : t.Counted h := by
  obtain ⟨hqueue,hpending,hsessions,hparked⟩ := hc
  cases g with
  | capture tracked hopen =>
    refine ⟨hqueue,hpending,hsessions.capture rfl (load_eq_zero fun item hi hs => ?_),hparked⟩
    have hlt := hk item (by simp only [items, List.mem_append]; tauto) _ hs
    exact lt_irrefl _ hlt
  | endWaits waits hends => exact ⟨hqueue,hpending,hsessions.ends hends,hparked⟩
  | expire session wait group hwait hgroup =>
    rw [expireSession_eq hwait hgroup]
    refine ⟨?_,hpending,(hsessions.ends (forall₂_modify_end _ _ _)).congr (fun i => ?_),hparked⟩
    · simp [hqueue, held, Post.hand, Hand.counted]
    · simp [held, Post.hand, Hand.counted]
  | accept data storage destination session counters hadmits hroom =>
    obtain ⟨-,rfl⟩ := tryReserveLimitBytes_some hroom
    rw [admitted_eq _ _ _ _ _ _ _ (fun _ _ => rfl)]
    refine ⟨?_,hpending,hsessions.congr (fun i => ?_),hparked⟩
    · simp [hqueue, held, Post.hand, Hand.counted]
    · simp [held, Post.hand, Hand.counted]
  | tryAdmit data storage destination session counters hadmits hroom =>
    obtain ⟨-,-,rfl⟩ := tryReserveWriteBytesLocked_some hroom
    rw [admitted_eq _ _ _ _ _ _ _ (fun _ _ => rfl), tallyQueued_eq]
    have hcount := hsessions.recount (fun i q => if session = some i then q + data.length else q)
    refine ⟨?_,hpending,hcount.congr (fun i => ?_),hparked⟩
    · simp [hqueue, held, Post.hand, Hand.counted, newItem, TxItem.size]
      omega
    · simp [held, Post.hand, Hand.counted, newItem, TxItem.size]
      split_ifs <;> omega
  | refuseOversized =>
    refine ⟨?_,hpending,hsessions.congr (fun i => ?_),hparked⟩
    · simp [hqueue, held, Post.hand, Hand.counted]
    · simp [held, Post.hand, Hand.counted]
  | turn => exact ⟨hqueue,hpending,hsessions,hparked⟩

/-- Until the channel ends its counters stay exact. -/
theorem Counted.move (hr : s.Running) (hphase : s.Phase h) (hb : s.Bounded cfg h) (hk : s.Known h)
    (hc : s.channel.state.terminal = false → s.Counted h) (m : Move cfg (s,h) (t,k))
    (hopen : t.channel.state.terminal = false) : t.Counted k := by
  cases m with
  | grow s t h g =>
    rw [g.kept.state] at hopen
    exact (hc hopen).grow hk g
  | take s post rest hqueue => exact (hc hopen).take hqueue
  | takeSent s item rest hsending => exact (hc hopen).takeSent hsending
  | forget | refuse | activate | rest =>
    obtain ⟨hq,hp,hs,hpk⟩ := hc hopen
    exact ⟨hq,hp,hs,hpk⟩
  | park s item =>
    rw [parkedWith_eq] at hopen
    exact (hc hopen).park hb
  | enqueue s item =>
    rw [queuedWith_eq] at hopen
    exact (hc hopen).enqueue hb
  | enqueueTried s item => exact (hc hopen).enqueueTried
  | dropTried s item | dropCurrent s item =>
    rw [dropQueued_eq] at hopen
    exact (hc hopen).drop rfl rfl
  | dropUnroutable s item =>
    rw [dropQueued_eq] at hopen
    obtain ⟨hq,hp,hs,hpk⟩ := hc hopen
    have hdiscarded : Counted ({ s with
        channel.ledger := s.channel.ledger.discard item.request .connectionLoss } : Strand N) (.current item) :=
      ⟨hq,hp,hs,hpk⟩
    exact (hdiscarded.drop (k := .empty) rfl rfl).rehand rfl (fun _ => rfl) rfl rfl ⟨rfl,rfl⟩
  | relieve =>
    rw [relieved_eq] at hopen
    exact (hc hopen).relieve hb
  | dropDead s h item rest htx =>
    rw [dropQueued_eq] at hopen
    exact (hc hopen).dropDead htx
  | pick s item rest htx => exact (hc hopen).pick htx
  | handOver s item => exact (hc hopen).handOver hphase.2 _ _
  | throwing | error =>
    rw [ended_eq] at hopen
    cases hopen
  | complete s item written =>
    rw [dropQueued_eq] at hopen
    obtain ⟨hq,hp,hs,hpk⟩ := hc hopen
    have hcompleted : Counted ({ s with
        channel.ledger := s.channel.ledger.completeLocked item.request written } : Strand N) (.sent item) :=
      ⟨hq,hp,hs,hpk⟩
    exact hcompleted.drop rfl rfl
  | fail s item written =>
    rw [dropQueued_eq] at hopen
    obtain ⟨hq,hp,hs,hpk⟩ := hc hopen
    have hfailed : Counted ({ s with channel := { s.channel with
        ledger := s.channel.ledger.completeLocked item.request written }.failWrites } : Strand N) (.sent item) :=
      ⟨hq,hp,hs.ends (forall₂_map_end _ _),hpk⟩
    exact hfailed.drop rfl rfl
  | discard s session =>
    rw [discardSessionQueue_eq] at hopen
    exact (hc hopen).discard
  | clear s h hclosed =>
    rw [cleared_eq] at hopen
    rw [hr.closed, hopen] at hclosed
    cases hclosed

omit [CommRing N] in
/-- What holds between two moves of a channel. -/
structure Metered (cfg : Config) (s : Strand N) (h : Hand) : Prop where
  running : s.Running
  phase : s.Phase h
  known : s.Known h
  bounded : s.Bounded cfg h
  counted : s.channel.state.terminal = false → s.Counted h

theorem Metered.move (hm : s.Metered cfg h) (m : Move cfg (s,h) (t,k)) : t.Metered cfg k where
  running := hm.running.move m
  phase := hm.phase.move m
  known := hm.known.move m
  bounded := hm.bounded.move m
  counted := Counted.move hm.running hm.phase hm.bounded hm.known hm.counted m

theorem Metered.path {p q : Strand N × Hand} (hm : p.1.Metered cfg p.2) (m : Path cfg p q) : q.1.Metered cfg q.2 := by
  induction m with
  | refl => exact hm
  | tail _ m ih => exact ih.move m

theorem opened_metered (cfg : Config) (generation : ℕ) (remote : Option Endpoint) :
    (opened (N := N) generation remote).Metered cfg .empty where
  running := opened_running generation remote
  phase := opened_phase generation remote
  known := by simp [Known, items, held, opened, tries, plains, Hand.counted, Hand.reserved]
  bounded := ⟨rfl,Nat.zero_le _⟩
  counted := fun _ => ⟨rfl,rfl,nofun,fun _ => rfl⟩

/-- In every run, whatever calls fall between and into the handlers: the bytes in flight are
those of plain writes on the strand, and all bytes keep the limit. Until the channel ends
the other counters and the statistics of each session are exact as well. -/
theorem run_counters_exact (cfg : Config) (generation : ℕ) (remote : Option Endpoint) (ops : List StepOp) :
    let s : Strand N := (opened generation remote).run cfg ops
    s.channel.counters.inflightBytes = bytes (plains s.queue) ∧
    s.channel.counters.queueBytes + s.channel.counters.pendingBytes + s.channel.counters.inflightBytes ≤ cfg.bpLimit ∧
    (s.channel.state.terminal = false →
      s.channel.counters.queueBytes = bytes (s.channel.tx ++ s.channel.sending ++ tries s.queue) ∧
      s.channel.counters.pendingBytes = bytes s.channel.pending ∧
      ∀ i w, s.channel.writeWaits[i]? = some w → w.accounting.isSome = true →
        w.queued = load i (s.channel.tx ++ s.channel.sending ++ tries s.queue) ∧
        s.parked i = load i s.channel.pending) := by
  have hinit : (opened (N := N) generation remote).Metered cfg .empty := opened_metered cfg generation remote
  have hm := hinit.path (run_path generation remote ops)
  refine ⟨hm.bounded.inflight,hm.bounded.within,fun hopen => ?_⟩
  obtain ⟨hqueue,hpending,hsessions,hparked⟩ := hm.counted hopen
  have hheld : ∀ s : Strand N, s.held .empty = s.channel.tx ++ s.channel.sending ++ tries s.queue :=
    fun s => List.append_nil _
  rw [hheld] at hqueue hsessions
  exact ⟨hqueue,hpending,fun i w hw ht => ⟨hsessions i w hw ht,hparked i⟩⟩

end Strand
end Wirestead.Transport.UdpChannel
