import Wirestead.Transport.TcpClient.Admission
import Wirestead.Transport.TcpClient.SenderRuns

/-! # The byte counters are exact

A posted write knows the run and the connection that admitted it; those of a connection
that is over count for nothing in `queue_bytes`. While no call has failed after its
reservation and no attempt has failed beside a live connection, each counter is the sum
of the sizes it stands for.
-/
namespace Wirestead.Transport.TcpClient
open Diagnostics Sizes

/-- The buffer of a nonblocking write of the connection. -/
def Handler.tryItem? (connection : ℕ) : Handler → Option TrackedBuffer
  | .tryWrite item _ c => if c = connection then some item else none
  | _ => none

/-- The nonblocking writes of a connection whose handlers have not run. -/
def tryPosted (connection : ℕ) (posted : List Handler) : List TrackedBuffer :=
  posted.filterMap (Handler.tryItem? connection)

@[simp]
theorem tryPosted_append (connection : ℕ) (l r : List Handler) :
    tryPosted connection (l ++ r) = tryPosted connection l ++ tryPosted connection r := List.filterMap_append

@[simp]
theorem tryPosted_cons (connection : ℕ) (handler : Handler) (rest : List Handler) :
    tryPosted connection (handler :: rest) = (handler.tryItem? connection).toList ++ tryPosted connection rest := by
  unfold tryPosted
  rw [List.filterMap_cons]
  cases handler.tryItem? connection <;> rfl

theorem tryItem?_eq_none {handler : Handler} (h : handler.item? = none) (connection : ℕ) :
    handler.tryItem? connection = none := by
  cases handler with
  | tryWrite item s c => cases h
  | _ => rfl

theorem tryItem?_self (item : TrackedBuffer) (seq connection : ℕ) :
    (Handler.tryWrite item seq connection).tryItem? connection = some item := if_pos rfl

namespace Hand

theorem front_of_mayWrite {h : Hand} {writing : Bool} (hm : h.MayWrite writing) : h.front = [] := by
  cases h with
  | batch buffers => exact hm.elim
  | _ => rfl

end Hand

namespace Sender
variable {N : Type*} [CommRing N] {cfg : Config} {allow : Flaw → Prop} {h h' : Hand} {a a' : Sender N}

/-- The posted write was admitted on this connection of this run. -/
def Posts (a : Sender N) (item : TrackedBuffer) (seq connection : ℕ) : Prop :=
  .write item seq connection ∈ a.posted ∨ .tryWrite item seq connection ∈ a.posted

/-- Posted writes belong to connections up to the present one, and those of the present
one to the present run. -/
structure Ranked (a : Sender N) : Prop where
  le : ∀ {item seq c}, a.Posts item seq c → c ≤ a.connectionSeq
  current : ∀ {item seq c}, a.Posts item seq c → c = a.connectionSeq → a.connected = true ∧ seq = a.currentSeq

omit [CommRing N] in
theorem Ranked.congr {b : Sender N} (hr : Ranked a) (hp : ∀ {item seq c}, b.Posts item seq c → a.Posts item seq c)
    (hc : b.connectionSeq = a.connectionSeq) (hup : a.connected = true → b.connected = true)
    (hseq : b.currentSeq = a.currentSeq) : Ranked b := by
  refine ⟨fun h => ?_,fun h heq => ?_⟩
  · rw [hc]
    exact hr.le (hp h)
  · rw [hc] at heq
    obtain ⟨hconn,hs⟩ := hr.current (hp h) heq
    exact ⟨hup hconn,hs.trans hseq.symm⟩

/-- At the end of a connection its posts become past. -/
theorem Ranked.disconnect (hr : Ranked a) : Ranked a.disconnect := by
  unfold Sender.disconnect
  split
  · refine ⟨fun h => (hr.le h).trans (Nat.le_succ _),fun h heq => ?_⟩
    have hle := hr.le h
    dsimp only at heq
    omega
  · exact hr

theorem Ranked.lose (hr : Ranked a) : Ranked a.lose := ⟨hr.disconnect.le,hr.disconnect.current⟩

omit [CommRing N] in
theorem Ranked.relieve (hr : Ranked a) : Ranked (a.relieve cfg) := by
  unfold Sender.relieve
  split
  · exact ⟨hr.le,hr.current⟩
  · exact hr

/-- An admission posts for the present run and connection. -/
theorem Ranked.accept (hr : Ranked a) (hc : a.connected = true) {data : List UInt8} {counters : Counters}
    {handler : TrackedBuffer → Handler}
    (hh : handler = (fun item => .write item a.currentSeq a.connectionSeq) ∨
      handler = (fun item => .tryWrite item a.currentSeq a.connectionSeq)) :
    Ranked (({ a with counters := counters } : Sender N).accept data handler) := by
  have hnew : ∀ {item seq c}, (({ a with counters := counters } : Sender N).accept data handler).Posts item seq c →
      a.Posts item seq c ∨ seq = a.currentSeq ∧ c = a.connectionSeq := by
    rintro item seq c (hm | hm) <;> rcases List.mem_append.mp hm with hm | hm
    · exact .inl (.inl hm)
    · rcases hh with rfl | rfl <;> cases List.mem_singleton.mp hm
      exact .inr ⟨rfl,rfl⟩
    · exact .inl (.inr hm)
    · rcases hh with rfl | rfl <;> cases List.mem_singleton.mp hm
      exact .inr ⟨rfl,rfl⟩
  refine ⟨fun h => ?_,fun h heq => ?_⟩
  · rcases hnew h with h | ⟨-,rfl⟩
    · exact hr.le h
    · exact le_rfl
  · rcases hnew h with h | ⟨rfl,-⟩
    · exact hr.current h heq
    · exact ⟨hc,rfl⟩

omit [CommRing N] in
theorem posts_of_posts_rest {b : Sender N} {handler : Handler} {rest : List Handler}
    (hp : a.posted = handler :: rest) (hb : b.posted = rest) {item : TrackedBuffer} {seq c : ℕ}
    (h : b.Posts item seq c) : a.Posts item seq c := by
  unfold Posts at *
  rw [hb] at h
  rw [hp]
  exact h.imp (List.mem_cons_of_mem _) (List.mem_cons_of_mem _)

theorem Ranked.move (hr : Ranked a) (hf : Fit cfg h a) (hm : Move cfg allow (h,a) (h',a')) : Ranked a' := by
  cases hm with
  | pop _ handler rest hp => exact hr.congr (posts_of_posts_rest hp rfl) rfl id rfl
  | connect => exact hr.congr id rfl (fun _ => rfl) rfl
  | lose => exact hr.lose
  | strand => exact hr.disconnect
  | restart _ hs =>
    have hc := hf.down hs
    have hdown : ∀ {item seq c}, a.Posts item seq c → c < a.connectionSeq := by
      intro item seq c h
      refine lt_of_le_of_ne (hr.le h) (fun heq => ?_)
      have hup := (hr.current h heq).1
      simp [hc] at hup
    unfold Sender.restart Sender.disconnect
    dsimp only
    rw [if_neg (by simp [hc])]
    have hpast : ∀ {item seq c}, ({ a with posted := a.posted ++ [.start (a.lifecycleSeq + 1)] } :
        Sender N).Posts item seq c → a.Posts item seq c := by
      rintro item seq c (hm | hm) <;> rcases List.mem_append.mp hm with hm | hm
      · exact .inl hm
      · cases List.mem_singleton.mp hm
      · exact .inr hm
      · cases List.mem_singleton.mp hm
    exact ⟨fun h => hr.le (hpast h),fun h heq => absurd heq (hdown (hpast h)).ne⟩
  | post _ _ handler hi hs =>
    refine hr.congr ?_ rfl id rfl
    rintro item seq c (hm | hm) <;> rcases List.mem_append.mp hm with hm | hm
    · exact .inl hm
    · rw [← List.mem_singleton.mp hm] at hi
      cases hi
    · exact .inr hm
    · rw [← List.mem_singleton.mp hm] at hi
      cases hi
  | plain _ _ data ha => exact hr.accept ha.connected (.inl rfl)
  | tryPlain _ _ data ha => exact hr.accept ha.connected (.inr rfl)
  | writeThrows _ buffers =>
    have hrecord : Ranked (a.record buffers (totalBytes buffers)) := ⟨hr.le,hr.current⟩
    exact hrecord.lose
  | relieve => exact hr.relieve
  | route _ item rest hp => exact hr.congr (posts_of_posts_rest hp rfl) rfl id rfl
  | park _ item rest hp => exact hr.congr (posts_of_posts_rest hp rfl) rfl id rfl
  | drop _ handler rest item seq connection hp => exact hr.congr (posts_of_posts_rest hp rfl) rfl id rfl
  | unreserve _ item rest connection hp => exact hr.congr (posts_of_posts_rest hp rfl) rfl id rfl
  | routeTry _ item rest hp => exact hr.congr (posts_of_posts_rest hp rfl) rfl id rfl
  | unreserveTry _ item rest hp => exact hr.congr (posts_of_posts_rest hp rfl) rfl id rfl
  | complete => exact Ranked.relieve ⟨hr.le,hr.current⟩
  | fail => exact Ranked.lose ⟨hr.le,hr.current⟩
  | _ => exact ⟨hr.le,hr.current⟩

theorem ranked_init (settings : Settings) : Ranked (State.init settings : State N).sender := by
  have hnone : ∀ {item seq c}, ¬ (State.init settings : State N).sender.Posts item seq c := by
    rintro item seq c (h | h) <;> cases h
  exact ⟨fun h => absurd h hnone,fun h => absurd h hnone⟩

/-- The write of the present connection is the active one, and no queue outlives its
connection. -/
structure Tidy (a : Sender N) : Prop where
  down : a.connected = false → a.tx = [] ∧ a.pending = [] ∧ a.activeWrite = none
  active : a.present.map Flight.batch = a.activeWrite.toList
  fresh : ∀ f ∈ writes a.outstanding, f.batch.token < a.nextToken
  distinct : ((writes a.outstanding).map (fun f => f.batch.token)).Nodup
  bytes : ∀ f ∈ writes a.outstanding, f.batch.bytes = totalBytes f.batch.buffers

theorem tidy_init (settings : Settings) : Tidy (State.init settings : State N).sender :=
  ⟨fun _ => ⟨rfl,rfl,rfl⟩,rfl,fun _ hm => (by cases hm),.nil,fun _ hm => (by cases hm)⟩

omit [CommRing N] in
/-- While a connection is up only its write and the active one have to agree. -/
theorem Tidy.up {b : Sender N} (ht : Tidy a) (hc : b.connected = true) (hp : b.present = a.present)
    (hactive : b.activeWrite = a.activeWrite) (hw : writes b.outstanding = writes a.outstanding)
    (hn : b.nextToken = a.nextToken) : Tidy b := by
  constructor
  · intro hd
    simp [hc] at hd
  · rw [hp, hactive]
    exact ht.active
  · rw [hw, hn]
    exact ht.fresh
  · rw [hw]
    exact ht.distinct
  · rw [hw]
    exact ht.bytes

omit [CommRing N] in
theorem Tidy.complete (ht : Tidy a) {b : Sender N} {l r : List Flight} {f : Flight}
    (hw : writes a.outstanding = l ++ f :: r) (hb : writes b.outstanding = l ++ r) (hn : b.nextToken = a.nextToken)
    (hdown : b.connected = false → b.tx = [] ∧ b.pending = [] ∧ b.activeWrite = none)
    (hactive : b.present.map Flight.batch = b.activeWrite.toList) : Tidy b := by
  have hsub := writes_sublist hw hb
  refine ⟨hdown,hactive,fun g hg => ?_,ht.distinct.sublist (hsub.map _),fun g hg => ht.bytes g (hsub.subset hg)⟩
  rw [hn]
  exact ht.fresh g (hsub.subset hg)

/-- A lost connection leaves nothing behind; only the tokens of its writes matter. -/
theorem tidy_lose (hf : Fit cfg h a) (hfresh : ∀ f ∈ writes a.outstanding, f.batch.token < a.nextToken)
    (hdistinct : ((writes a.outstanding).map (fun f => f.batch.token)).Nodup)
    (hbytes : ∀ f ∈ writes a.outstanding, f.batch.bytes = totalBytes f.batch.buffers) : Tidy a.lose := by
  have hw : writes a.lose.outstanding = writes a.outstanding := by
    unfold Sender.lose Sender.disconnect
    split <;> rfl
  have hn : a.lose.nextToken = a.nextToken := by
    unfold Sender.lose Sender.disconnect
    split <;> rfl
  constructor
  · exact fun _ => ⟨rfl,rfl,rfl⟩
  · rw [hf.lose.present_of_down a.lose_connected]
    rfl
  · rw [hw, hn]
    exact hfresh
  · rw [hw]
    exact hdistinct
  · rw [hw]
    exact hbytes

omit [CommRing N] in
theorem Tidy.relieve (ht : Tidy a) : Tidy (a.relieve cfg) := by
  unfold Sender.relieve
  split
  · refine ⟨fun hc => ?_,ht.active,ht.fresh,ht.distinct,ht.bytes⟩
    obtain ⟨htx,hp,ha⟩ := ht.down hc
    dsimp only
    rw [htx, hp]
    exact ⟨rfl,rfl,ha⟩
  · exact ht

omit [CommRing N] in
/-- A stale completion does not touch the active batch. -/
theorem Tidy.active_of_stale (ht : Tidy a) {l r : List Flight} {f : Flight}
    (hw : writes a.outstanding = l ++ f :: r) (hc : f.connection ≠ a.connectionSeq) :
    a.activeWrite.map (fun c => if c.token = f.batch.token then { c with buffers := [] } else c) =
      a.activeWrite := by
  cases ha : a.activeWrite with
  | none => rfl
  | some c =>
    have hactive := ht.active
    rw [ha] at hactive
    obtain ⟨g,hg,hgc⟩ := List.mem_map.mp (hactive ▸ List.mem_singleton_self c : c ∈ a.present.map Flight.batch)
    obtain ⟨hgw,hgp⟩ := List.mem_filter.mp hg
    have hne : c.token ≠ f.batch.token := by
      intro heq
      have hd := ht.distinct
      rw [List.nodup_map_iff_inj_on (List.Nodup.of_map _ hd)] at hd
      have hgf := hd g hgw f (by rw [hw]; simp) (by rw [hgc, heq])
      rw [hgf] at hgp
      exact hc (of_decide_eq_true hgp)
    rw [Option.map_some, if_neg hne]

omit [CommRing N] in
theorem Tidy.operate (ht : Tidy a) {o : List Outstanding} (ho : writes o = writes a.outstanding) :
    Tidy { a with outstanding := o } := by
  have hp : ({ a with outstanding := o } : Sender N).present = a.present := by
    unfold present
    dsimp only
    rw [ho]
  constructor
  · exact ht.down
  · rw [hp]
    exact ht.active
  · dsimp only
    rw [ho]
    exact ht.fresh
  · dsimp only
    rw [ho]
    exact ht.distinct
  · dsimp only
    rw [ho]
    exact ht.bytes

omit [CommRing N] in
/-- The batch in hand becomes the active one, under a token of its own. -/
theorem Tidy.write {buffers : List TrackedBuffer} (ht : Tidy a) (hf : Fit cfg (.batch buffers) a)
    {o : List Outstanding} (ho : writes o = writes a.outstanding ++
      [⟨a.currentSeq,a.connectionSeq,⟨a.nextToken,buffers,totalBytes buffers⟩⟩]) :
    Tidy { a.record buffers (totalBytes buffers) with outstanding := o } := by
  have hpast : a.present = [] := hf.single.elim id (fun hs => hs.1.elim)
  constructor
  · intro hc
    exact absurd ((hf.busy id).2.symm.trans hc) (by simp)
  · change ((writes o).filter (fun f => f.connection = a.connectionSeq)).map Flight.batch = _
    rw [ho, List.filter_append, show (writes a.outstanding).filter _ = [] from hpast]
    simp [Sender.record]
  · intro f hm
    rw [show writes _ = _ from ho] at hm
    rcases List.mem_append.mp hm with hm | hm
    · exact (ht.fresh f hm).trans (Nat.lt_succ_self _)
    · rw [List.mem_singleton.mp hm]
      exact Nat.lt_succ_self _
  · rw [show writes _ = _ from ho, List.map_append, List.nodup_append]
    refine ⟨ht.distinct,List.nodup_singleton _,fun k hk m hm => ?_⟩
    obtain ⟨f,hf',rfl⟩ := List.mem_map.mp hk
    rw [List.mem_singleton.mp hm]
    exact (ht.fresh f hf').ne
  · intro f hm
    rw [show writes _ = _ from ho] at hm
    rcases List.mem_append.mp hm with hm | hm
    · exact ht.bytes f hm
    · rw [List.mem_singleton.mp hm]

theorem Tidy.completeStale (ht : Tidy a) {l r : List Flight} {seq connection : ℕ} {b : WriteBatch}
    {o : List Outstanding} (hw : writes a.outstanding = l ++ ⟨seq,connection,b⟩ :: r)
    (hc : connection ≠ a.connectionSeq) (ho : writes o = l ++ r) (n : ℕ) :
    Tidy { a.settle b n with
      outstanding := o
      activeWrite := a.activeWrite.map (fun c => if c.token = b.token then { c with buffers := [] } else c) } := by
  have hstale := ht.active_of_stale hw hc
  refine ht.complete hw ho rfl (fun hd => ?_) ?_
  · dsimp only
    rw [hstale]
    exact ht.down hd
  · have hp : ({ a with outstanding := o } : Sender N).present = a.present := by
      unfold present
      dsimp only
      rw [ho, hw, List.filter_append, List.filter_append, List.filter_cons_of_neg (by simpa using hc)]
    dsimp only
    rw [hstale, ← ht.active, ← hp]
    rfl

theorem Tidy.fail (ht : Tidy a) (hf : Fit cfg .empty a) {l r : List Flight} {seq : ℕ} {b : WriteBatch}
    {o : List Outstanding} (hw : writes a.outstanding = l ++ ⟨seq,a.connectionSeq,b⟩ :: r) (ho : writes o = l ++ r)
    (n : ℕ) : Tidy ({ a.settle b n with outstanding := o } : Sender N).lose := by
  obtain ⟨hpresent,-⟩ := hf.present_complete hw ho
  have hsettled : Fit cfg .empty ({ a.settle b n with outstanding := o } : Sender N) :=
    ⟨hf.seqs,hf.linked,hf.total,hf.reserved,hf.posted,hf.flights_complete hw ho,.inl hpresent,hf.busy⟩
  have hsub := writes_sublist hw ho
  exact tidy_lose hsettled (fun f hm => ht.fresh f (hsub.subset hm)) (ht.distinct.sublist (hsub.map _))
    (fun f hm => ht.bytes f (hsub.subset hm))

theorem Tidy.move (ht : Tidy a) (hr : Ranked a) (hf : Fit cfg h a) (hs : ¬ allow .strand)
    (hm : Move cfg allow (h,a) (h',a')) : Tidy a' := by
  have hup : ∀ {item seq}, a.Posts item seq a.connectionSeq → a.connected = true :=
    fun hp => (hr.current hp rfl).1
  cases hm with
  | operate _ o ho => exact ht.operate ho
  | connect => exact ht.up rfl rfl rfl rfl rfl
  | lose => exact tidy_lose hf ht.fresh ht.distinct ht.bytes
  | strand _ ha => exact absurd ha hs
  | purge _ hc => exact ⟨fun _ => ⟨rfl,rfl,(ht.down hc).2.2⟩,ht.active,ht.fresh,ht.distinct,ht.bytes⟩
  | restart _ hst =>
    have hc := hf.down hst
    obtain ⟨htx,-,ha⟩ := ht.down hc
    unfold Sender.restart Sender.disconnect
    dsimp only
    rw [if_neg (by simp [hc])]
    exact ⟨fun _ => ⟨htx,rfl,ha⟩,ht.active,ht.fresh,ht.distinct,ht.bytes⟩
  | take _ _ buffers rest hmay hopen hc => exact ht.up hc rfl rfl rfl rfl
  | putBack => exact ht.up (hf.busy id).2 rfl rfl rfl rfl
  | write _ buffers o hst hb ho => exact ht.write hf ho
  | writeThrows _ buffers =>
    have hrecord : Fit cfg (.batch buffers) (a.record buffers (totalBytes buffers)) :=
      ⟨hf.seqs,hf.linked,hf.total,hf.reserved,hf.posted,hf.flights,hf.single,hf.busy⟩
    exact tidy_lose hrecord (fun f hm => (ht.fresh f hm).trans (Nat.lt_succ_self _)) ht.distinct ht.bytes
  | halt _ _ hmay => exact ⟨fun hc => ⟨rfl,rfl,(ht.down hc).2.2⟩,ht.active,ht.fresh,ht.distinct,ht.bytes⟩
  | relieve => exact ht.relieve
  | route _ item rest hp =>
    have hpost : a.Posts item a.currentSeq a.connectionSeq := .inl (hp ▸ List.mem_cons_self)
    exact ht.up (hup hpost) rfl rfl rfl rfl
  | park _ item rest hp =>
    have hpost : a.Posts item a.currentSeq a.connectionSeq := .inl (hp ▸ List.mem_cons_self)
    exact ht.up (hup hpost) rfl rfl rfl rfl
  | routeTry _ item rest hp =>
    have hpost : a.Posts item a.currentSeq a.connectionSeq := .inr (hp ▸ List.mem_cons_self)
    exact ht.up (hup hpost) rfl rfl rfl rfl
  | complete _ l r o seq b n hw ho =>
    obtain ⟨hpresent,-,hc,-⟩ := hf.present_complete hw ho
    refine Tidy.relieve (ht.complete hw ho rfl (fun hd => absurd (hc.symm.trans hd) (by simp)) ?_)
    change ({ a with outstanding := o } : Sender N).present.map Flight.batch = []
    rw [hpresent]
    rfl
  | completeStale _ l r o seq connection b n hw hc ho => exact ht.completeStale hw hc ho n
  | fail _ l r o seq b n hw ho => exact ht.fail hf hw ho n
  | _ => exact ⟨ht.down,ht.active,ht.fresh,ht.distinct,ht.bytes⟩

/-- The payloads of the active write batch. -/
def active (a : Sender N) : List TrackedBuffer := (a.activeWrite.map WriteBatch.buffers).getD []

/-- Each counter is the sum that it stands for; a batch in hand is still queued. -/
structure Counted (h : Hand) (a : Sender N) : Prop where
  pending : a.counters.pendingBytes = totalBytes a.pending
  inflight : a.counters.inflightBytes = totalBytes (plainPosted a.currentSeq a.posted)
  queue : a.counters.queueBytes = totalBytes h.front + totalBytes a.tx + totalBytes a.active +
    totalBytes (tryPosted a.connectionSeq a.posted)

omit [CommRing N] in
/-- No nonblocking write is posted for a connection that is down. -/
theorem Ranked.tryPosted_of_down (hr : Ranked a) (hc : a.connected = false) :
    tryPosted a.connectionSeq a.posted = [] := by
  unfold tryPosted
  rw [List.filterMap_eq_nil_iff]
  intro handler hh
  cases handler with
  | tryWrite item seq c =>
    refine if_neg fun heq => ?_
    have hup := (hr.current (.inr hh) heq).1
    simp [hc] at hup
  | _ => rfl

theorem counted_lose (hr : Ranked a) (hi : a.counters.inflightBytes = totalBytes (plainPosted a.currentSeq a.posted)) :
    Counted .empty a.lose := by
  refine ⟨rfl,?_,?_⟩
  · rw [a.lose_currentSeq, a.lose_posted, ← hi]
    unfold Sender.lose Sender.disconnect
    split <;> rfl
  · rw [hr.lose.tryPosted_of_down a.lose_connected]
    rfl

omit [CommRing N] in
theorem Counted.relieve (hc : Counted h a) (hf : Fit cfg h a) : Counted h (a.relieve cfg) := by
  have htotal := hf.total
  have hlimit := cfg.bpLimit_lt
  have hpending := hc.pending
  have hqueue := hc.queue
  unfold Counters.total at htotal
  unfold Sender.relieve
  split
  · refine ⟨rfl,hc.inflight,?_⟩
    dsimp only
    rw [add_eq (by omega), totalBytes_append]
    change _ = totalBytes h.front + _ + totalBytes a.active + _
    omega
  · exact hc

omit [CommRing N] in
theorem Counted.pop_le (hc : Counted h a) {handler : Handler} {rest : List Handler} (hp : a.posted = handler :: rest) :
    totalBytes (handler.plain? a.currentSeq).toList ≤ a.counters.inflightBytes := by
  rw [hc.inflight, hp, plainPosted_cons, totalBytes_append]
  exact Nat.le_add_right _ _

omit [CommRing N] in
/-- The first handler is taken, and what it stood for leaves the counters or moves to a
queue. -/
theorem Counted.pop (hc : Counted .empty a) {handler : Handler} {rest : List Handler}
    (hp : a.posted = handler :: rest) {counters : Counters} {tx pending : List TrackedBuffer}
    (hh : h'.front = []) (hpending : counters.pendingBytes = totalBytes pending)
    (hinflight : counters.inflightBytes + totalBytes (handler.plain? a.currentSeq).toList = a.counters.inflightBytes)
    (hqueue : counters.queueBytes + totalBytes a.tx + totalBytes (handler.tryItem? a.connectionSeq).toList =
      a.counters.queueBytes + totalBytes tx) :
    Counted h' { a with posted := rest, counters := counters, tx := tx, pending := pending } := by
  have hinflight' := hc.inflight
  have hqueue' := hc.queue
  rw [hp, plainPosted_cons, totalBytes_append] at hinflight'
  rw [hp, tryPosted_cons, totalBytes_append, show Hand.empty.front = [] from rfl] at hqueue'
  refine ⟨hpending,?_,?_⟩
  · dsimp only
    omega
  · change counters.queueBytes = totalBytes h'.front + totalBytes tx + totalBytes a.active +
      totalBytes (tryPosted a.connectionSeq rest)
    rw [hh]
    omega

omit [CommRing N] in
theorem Tidy.active_eq_nil (ht : Tidy a) (hp : a.present = []) : a.active = [] := by
  have hactive := ht.active
  rw [hp] at hactive
  unfold Sender.active
  rw [Option.toList_eq_nil_iff.mp hactive.symm]
  rfl

omit [CommRing N] in
/-- The write of the present connection is the active one. -/
theorem Tidy.active_of_present (ht : Tidy a) (hf : Fit cfg h a) {l r : List Flight} {seq : ℕ} {b : WriteBatch}
    (hw : writes a.outstanding = l ++ ⟨seq,a.connectionSeq,b⟩ :: r) : a.active = b.buffers := by
  have hactive := ht.active
  have hmem : ⟨seq,a.connectionSeq,b⟩ ∈ a.present := by
    unfold present
    rw [hw]
    simp
  rcases hf.single with hp | ⟨-,-,-,f,hp,-⟩
  · rw [hp] at hmem
    cases hmem
  · rw [hp] at hmem hactive
    rw [← List.mem_singleton.mp hmem] at hactive
    unfold Sender.active
    rw [Option.toList_eq_singleton_iff.mp hactive.symm]
    rfl

omit [CommRing N] in
/-- What the counters stand for is the same. -/
theorem Counted.congr {b : Sender N} (hc : Counted h a) (hcounters : b.counters = a.counters)
    (hpending : b.pending = a.pending)
    (hplain : plainPosted b.currentSeq b.posted = plainPosted a.currentSeq a.posted)
    (htry : tryPosted b.connectionSeq b.posted = tryPosted a.connectionSeq a.posted)
    (hactive : b.active = a.active)
    (hqueue : totalBytes h'.front + totalBytes b.tx = totalBytes h.front + totalBytes a.tx) : Counted h' b := by
  refine ⟨?_,?_,?_⟩
  · rw [hcounters, hpending]
    exact hc.pending
  · rw [hcounters, hplain]
    exact hc.inflight
  · rw [hcounters, hactive, htry, hqueue]
    exact hc.queue

omit [CommRing N] in
theorem relieve_stopRequested (a : Sender N) : (a.relieve cfg).stopRequested = a.stopRequested := by
  unfold Sender.relieve
  split <;> rfl

theorem lose_stopRequested (a : Sender N) : a.lose.stopRequested = a.stopRequested := by
  unfold Sender.lose Sender.disconnect
  split <;> rfl

omit [CommRing N] in
/-- The queues of a connection that is down are cleared. -/
theorem Counted.purge (hc : Counted .empty a) (ht : Tidy a) (hr : Ranked a) (hf : Fit cfg .empty a)
    (hdown : a.connected = false) : Counted .empty a.clear := by
  refine ⟨rfl,hc.inflight,?_⟩
  change 0 = 0 + 0 + totalBytes a.active + totalBytes (tryPosted a.connectionSeq a.posted)
  rw [hr.tryPosted_of_down hdown, ht.active_eq_nil (hf.present_of_down hdown)]
  rfl

/-- A new run counts nothing that an earlier one has posted. -/
theorem counted_restart (ht : Tidy a) (hr : Ranked a) (hf : Fit cfg .empty a) (hst : a.state ≠ .connected) :
    Counted .empty a.restart := by
  have hdown := hf.down hst
  unfold Sender.restart Sender.disconnect
  dsimp only
  rw [if_neg (by simp [hdown])]
  refine ⟨rfl,?_,?_⟩
  · rw [plainPosted_append, plainPosted_eq_nil hf.posted_before]
    rfl
  · change 0 = 0 + totalBytes a.tx + totalBytes a.active + totalBytes (tryPosted a.connectionSeq (a.posted ++ [_]))
    rw [tryPosted_append, hr.tryPosted_of_down hdown, (ht.down hdown).1, ht.active_eq_nil (hf.present_of_down hdown)]
    rfl

omit [CommRing N] in
/-- A handler that carries no write. -/
theorem Counted.post (hc : Counted h a) {handler : Handler} (hi : handler.item? = none) :
    Counted h { a with posted := a.posted ++ [handler] } := by
  refine hc.congr rfl rfl ?_ ?_ rfl rfl
  · rw [plainPosted_append, plainPosted_cons, plain?_eq_none hi]
    simp
  · rw [tryPosted_append, tryPosted_cons, tryItem?_eq_none hi]
    simp [tryPosted]

theorem Counted.plain (hc : Counted h a) (data : List UInt8) :
    Counted h ({ a with counters := { a.counters with
        inflightBytes := a.counters.inflightBytes + data.length } }.accept data
      (fun item => .write item a.currentSeq a.connectionSeq)) := by
  refine ⟨hc.pending,?_,?_⟩
  · change a.counters.inflightBytes + data.length = totalBytes (plainPosted a.currentSeq (a.posted ++ [_]))
    rw [plainPosted_append, plainPosted_cons, plain?_self, totalBytes_append, hc.inflight]
    rfl
  · change a.counters.queueBytes = totalBytes h.front + totalBytes a.tx + totalBytes a.active +
      totalBytes (tryPosted a.connectionSeq (a.posted ++ [_]))
    rw [tryPosted_append, totalBytes_append, hc.queue]
    rfl

theorem Counted.tryPlain (hc : Counted h a) (data : List UInt8) :
    Counted h ({ a with counters := { a.counters with
        queueBytes := a.counters.queueBytes + data.length } }.accept data
      (fun item => .tryWrite item a.currentSeq a.connectionSeq)) := by
  refine ⟨hc.pending,?_,?_⟩
  · change a.counters.inflightBytes = totalBytes (plainPosted a.currentSeq (a.posted ++ [_]))
    rw [plainPosted_append, totalBytes_append, hc.inflight]
    rfl
  · change a.counters.queueBytes + data.length = totalBytes h.front + totalBytes a.tx + totalBytes a.active +
      totalBytes (tryPosted a.connectionSeq (a.posted ++ [_]))
    rw [tryPosted_append, tryPosted_cons, tryItem?_self, totalBytes_append, hc.queue]
    exact Nat.add_assoc _ _ _

omit [CommRing N] in
/-- The batch in hand becomes the active one. -/
theorem Counted.write {buffers : List TrackedBuffer} (hc : Counted (.batch buffers) a) (ht : Tidy a)
    (hf : Fit cfg (.batch buffers) a) (o : List Outstanding) :
    Counted .empty { a.record buffers (totalBytes buffers) with outstanding := o } := by
  have hactive := ht.active_eq_nil (hf.single.elim id (fun hs => hs.1.elim))
  have hqueue := hc.queue
  refine ⟨hc.pending,hc.inflight,?_⟩
  rw [hactive] at hqueue
  change a.counters.queueBytes = 0 + totalBytes a.tx + totalBytes buffers +
    totalBytes (tryPosted a.connectionSeq a.posted)
  rw [hqueue]
  simp only [Hand.front, totalBytes_nil]
  omega

omit [CommRing N] in
theorem Counted.route (hc : Counted .empty a) (hf : Fit cfg .empty a) {item : TrackedBuffer} {rest : List Handler}
    (hp : a.posted = .write item a.currentSeq a.connectionSeq :: rest) :
    Counted .queued { a with posted := rest
                             tx := a.tx ++ [item]
                             counters := commitReservedLimitBytes a.counters .queue item.size } := by
  have htotal := hf.total
  have hlimit := cfg.bpLimit_lt
  have hle := hc.pop_le hp
  unfold Counters.total at htotal
  rw [plain?_self] at hle
  refine hc.pop hp rfl hc.pending ?_ ?_
  · rw [plain?_self]
    simp only [commitReservedLimitBytes, release_eq, Option.toList_some, totalBytes_cons, totalBytes_nil] at hle ⊢
    omega
  · simp only [commitReservedLimitBytes, Handler.tryItem?, Option.toList_some, Option.toList_none, totalBytes_append,
      totalBytes_cons, totalBytes_nil] at hle ⊢
    rw [add_eq (by omega)]
    omega

omit [CommRing N] in
theorem Counted.park (hc : Counted .empty a) (hf : Fit cfg .empty a) {item : TrackedBuffer} {rest : List Handler}
    (hp : a.posted = .write item a.currentSeq a.connectionSeq :: rest) :
    Counted .empty { a with posted := rest
                            pending := a.pending ++ [item]
                            counters := commitReservedLimitBytes a.counters .pending item.size } := by
  have htotal := hf.total
  have hlimit := cfg.bpLimit_lt
  have hle := hc.pop_le hp
  have hpending := hc.pending
  unfold Counters.total at htotal
  rw [plain?_self] at hle
  simp only [Option.toList_some, totalBytes_cons, totalBytes_nil] at hle
  refine hc.pop hp rfl ?_ ?_ rfl
  · simp only [commitReservedLimitBytes, totalBytes_append, totalBytes_cons, totalBytes_nil]
    rw [add_eq (by omega)]
    omega
  · rw [plain?_self]
    simp only [commitReservedLimitBytes, release_eq, Option.toList_some, totalBytes_cons, totalBytes_nil]
    omega

omit [CommRing N] in
/-- The handler of a write of another run or connection, which is not counted any more. -/
theorem Counted.drop (hc : Counted .empty a) (hr : Ranked a) {handler : Handler} {rest : List Handler}
    {item : TrackedBuffer} {seq connection : ℕ} (hp : a.posted = handler :: rest)
    (hd : handler = .write item seq connection ∧ seq ≠ a.currentSeq ∨
      handler = .tryWrite item seq connection ∧ (seq ≠ a.currentSeq ∨ connection ≠ a.connectionSeq)) :
    Counted .empty { a with posted := rest } := by
  have hmem : handler ∈ a.posted := hp ▸ List.mem_cons_self
  obtain ⟨hplain,htry⟩ : handler.plain? a.currentSeq = none ∧ handler.tryItem? a.connectionSeq = none := by
    rcases hd with ⟨rfl,hseq⟩ | ⟨rfl,hseq⟩
    · exact ⟨if_neg hseq,rfl⟩
    · refine ⟨rfl,if_neg fun heq => ?_⟩
      rcases hseq with hseq | hseq
      · exact hseq (hr.current (.inr hmem) heq).2
      · exact hseq heq
  refine hc.pop hp rfl hc.pending ?_ ?_
  · rw [hplain]
    rfl
  · rw [htry]
    rfl

omit [CommRing N] in
theorem Counted.unreserve (hc : Counted .empty a) {item : TrackedBuffer} {rest : List Handler} {connection : ℕ}
    (hp : a.posted = .write item a.currentSeq connection :: rest) :
    Counted .empty { a with posted := rest, counters := releaseReservedLimitBytes a.counters item.size } := by
  have hle := hc.pop_le hp
  refine hc.pop hp rfl hc.pending ?_ rfl
  rw [plain?_self] at hle ⊢
  simp only [releaseReservedLimitBytes, release_eq, Option.toList_some, totalBytes_cons, totalBytes_nil] at hle ⊢
  omega

omit [CommRing N] in
theorem Counted.routeTry (hc : Counted .empty a) {item : TrackedBuffer} {rest : List Handler}
    (hp : a.posted = .tryWrite item a.currentSeq a.connectionSeq :: rest) :
    Counted .queued { a with posted := rest, tx := a.tx ++ [item] } := by
  refine hc.pop hp rfl hc.pending rfl ?_
  rw [tryItem?_self]
  simp only [Option.toList_some, totalBytes_append, totalBytes_cons, totalBytes_nil]
  omega

/-- The completion of a write releases what the active batch counts. -/
theorem Counted.complete (hc : Counted .empty a) (ht : Tidy a) (hf : Fit cfg .empty a) {l r : List Flight} {seq : ℕ}
    {b : WriteBatch} {o : List Outstanding} (hw : writes a.outstanding = l ++ ⟨seq,a.connectionSeq,b⟩ :: r)
    (ho : writes o = l ++ r) (n : ℕ) :
    Counted .finishing (Sender.relieve { a.settle b n with
      outstanding := o, activeWrite := none, counters := releaseReservedWriteBytes a.counters b.bytes } cfg) := by
  obtain ⟨hpresent,hrest,hup,hwr,-⟩ := hf.present_complete hw ho
  have htotal := hf.total
  have hqueue := hc.queue
  have hactive : a.active = b.buffers := ht.active_of_present hf hw
  have hbytes : b.bytes = totalBytes b.buffers := ht.bytes ⟨seq,a.connectionSeq,b⟩ (by rw [hw]; simp)
  unfold Counters.total at htotal
  rw [hactive] at hqueue
  refine Counted.relieve ⟨hc.pending,hc.inflight,?_⟩ ?_
  · change release a.counters.queueBytes b.bytes = 0 + totalBytes a.tx + 0 +
      totalBytes (tryPosted a.connectionSeq a.posted)
    rw [release_eq, hqueue, hbytes, show Hand.empty.front = [] from rfl, totalBytes_nil]
    omega
  · refine ⟨hf.seqs,hf.linked,?_,hf.reserved,hf.posted,hf.flights_complete hw ho,.inl hpresent,fun _ => ⟨hwr,hup⟩⟩
    unfold Counters.total releaseReservedWriteBytes
    dsimp only
    rw [release_eq]
    omega

/-- Between stop and the next start the counters stand for nothing. -/
theorem Counted.move (hc : a.stopRequested = false → Counted h a) (ht : Tidy a) (hr : Ranked a) (hf : Fit cfg h a)
    (hleak : ¬ allow .leak) (hstrand : ¬ allow .strand) (hm : Move cfg allow (h,a) (h',a'))
    (hs : a'.stopRequested = false) : Counted h' a' := by
  cases hm with
  | pop _ handler rest hp hi =>
    have hc := hc hs
    refine hc.pop hp rfl hc.pending ?_ ?_
    · rw [plain?_eq_none hi]
      rfl
    · rw [tryItem?_eq_none hi]
      rfl
  | lose => exact counted_lose hr (hc ((lose_stopRequested _).symm.trans hs)).inflight
  | strand _ ha => exact absurd ha hstrand
  | purge _ hdown => exact (hc hs).purge ht hr hf hdown
  | restart _ hst => exact counted_restart ht hr hf hst
  | post _ _ handler hi => exact (hc hs).post hi
  | plain _ _ data => exact (hc hs).plain data
  | tryPlain _ _ data => exact (hc hs).tryPlain data
  | leak _ _ _ _ ha => exact absurd ha hleak
  | stop => cases hs
  | take _ _ buffers rest hmay hopen hup htx =>
    refine (hc hs).congr rfl rfl rfl rfl rfl ?_
    rw [Hand.front_of_mayWrite hmay, htx, totalBytes_append]
    exact (Nat.zero_add _).symm
  | putBack _ buffers =>
    refine (hc hs).congr rfl rfl rfl rfl rfl ?_
    rw [totalBytes_append]
    exact Nat.zero_add _
  | write _ buffers o => exact (hc hs).write ht hf o
  | writeThrows _ buffers =>
    have hrecord : Ranked (a.record buffers (totalBytes buffers)) := ⟨hr.le,hr.current⟩
    rw [lose_stopRequested] at hs
    exact counted_lose hrecord (hc hs).inflight
  | idle _ _ hmay => exact (hc hs).congr rfl rfl rfl rfl rfl (by rw [Hand.front_of_mayWrite hmay]; rfl)
  | halt _ _ _ hst => exact absurd (hst.symm.trans hs) (by simp)
  | relieve => exact (hc ((relieve_stopRequested _).symm.trans hs)).relieve hf
  | route _ item rest hp => exact (hc hs).route hf hp
  | park _ item rest hp => exact (hc hs).park hf hp
  | drop _ handler rest item seq connection hp hd => exact (hc hs).drop hr hp hd
  | unreserve _ item rest connection hp => exact (hc hs).unreserve hp
  | routeTry _ item rest hp => exact (hc hs).routeTry hp
  | unreserveTry _ item rest hp ho =>
    obtain ⟨hup,-⟩ := hr.current (.inr (hp ▸ List.mem_cons_self)) rfl
    have hst := hf.linked hup
    exact absurd ⟨hs,by simp [hst],by simp [hst]⟩ ho
  | complete _ l r o seq b n hw ho =>
    rw [relieve_stopRequested] at hs
    exact (hc hs).complete ht hf hw ho n
  | completeStale _ l r o seq connection b n hw hst ho =>
    refine (hc hs).congr rfl rfl rfl rfl ?_ rfl
    unfold Sender.active
    dsimp only
    rw [ht.active_of_stale hw hst]
  | fail _ l r o seq b n hw ho =>
    have hsettled : Ranked ({ a.settle b n with outstanding := o } : Sender N) := ⟨hr.le,hr.current⟩
    rw [lose_stopRequested] at hs
    exact counted_lose hsettled (hc hs).inflight
  | giveUp => exact (hc hs).congr rfl rfl rfl rfl rfl rfl
  | _ => exact (hc hs).congr rfl rfl rfl rfl rfl rfl

end Sender

namespace State
variable {N : Type*} [CommRing N]

/-- The counters are the sums of what they stand for. -/
structure Exact (s : State N) : Prop where
  pending : s.counters.pendingBytes = totalBytes s.pending
  inflight : s.counters.inflightBytes = totalBytes (plainPosted s.currentSeq s.posted)
  queue : s.counters.queueBytes = totalBytes s.tx + totalBytes ((s.activeWrite.map WriteBatch.buffers).getD []) +
    totalBytes (tryPosted s.connectionSeq s.posted)

/-- What a handler or a completion will release is there to be released. -/
structure Unsaturated (s : State N) : Prop where
  plain : ∀ item connection, .write item s.currentSeq connection ∈ s.posted →
    item.size ≤ s.counters.inflightBytes
  nonblocking : ∀ item seq, .tryWrite item seq s.connectionSeq ∈ s.posted → item.size ≤ s.counters.queueBytes
  written : ∀ f ∈ writes s.outstanding, f.connection = s.connectionSeq → f.batch.bytes ≤ s.counters.queueBytes

theorem size_le_totalBytes {item : TrackedBuffer} {items : List TrackedBuffer} (h : item ∈ items) :
    item.size ≤ totalBytes items := List.le_sum_of_mem (List.mem_map_of_mem h)

omit [CommRing N] in
theorem Exact.unsaturated {cfg : Config} {s : State N} (he : s.Exact) (ht : s.sender.Tidy)
    (hf : Sender.Fit cfg .empty s.sender) : s.Unsaturated := by
  refine ⟨fun item connection hm => ?_,fun item seq hm => ?_,fun f hm hc => ?_⟩
  · rw [he.inflight]
    exact size_le_totalBytes (List.mem_filterMap.mpr ⟨_,hm,Sender.plain?_self item _ _⟩)
  · rw [he.queue]
    exact (size_le_totalBytes (List.mem_filterMap.mpr ⟨_,hm,tryItem?_self item _ _⟩)).trans (Nat.le_add_left _ _)
  · obtain ⟨l,r,hw⟩ := List.append_of_mem hm
    have hactive : s.sender.active = f.batch.buffers := by
      refine ht.active_of_present hf (?_ : writes s.sender.outstanding = l ++ ⟨f.seq,s.connectionSeq,f.batch⟩ :: r)
      rw [← hc]
      exact hw
    rw [he.queue, ht.bytes f hm, ← hactive]
    exact (Nat.le_add_left _ _).trans (Nat.le_add_right _ _)

/-- In every run in which no call fails after its reservation and no attempt fails beside
a live connection, the counters are exact until stop is requested, and again after the
next start. -/
theorem run_exact_counters (cfg : Config) (settings : Settings) (ops : List StepOp)
    (hops : Heeds cfg (fun flaw => flaw = .overtake ∨ flaw = .abort) (init settings : State N) ops)
    (hs : ((init settings : State N).run cfg ops).stopRequested = false) :
    ((init settings : State N).run cfg ops).Exact ∧ ((init settings : State N).run cfg ops).Unsaturated := by
  obtain ⟨hf,-,ht,hc⟩ := run_keeps
    (J := fun h a => Sender.Ranked a ∧ Sender.Tidy a ∧ (a.stopRequested = false → Sender.Counted h a))
    (fun hm hf ⟨hr,ht,hc⟩ => ⟨hr.move hf hm,ht.move hr hf (by simp) hm,
      Sender.Counted.move hc ht hr hf (by simp) (by simp) hm⟩)
    settings ops ⟨Sender.ranked_init settings,Sender.tidy_init settings,fun _ => ⟨rfl,rfl,rfl⟩⟩ hops
  have he : ((init settings : State N).run cfg ops).Exact := by
    refine ⟨(hc hs).pending,(hc hs).inflight,(hc hs).queue.trans ?_⟩
    rw [show Hand.empty.front = [] from rfl, totalBytes_nil, Nat.zero_add]
    rfl
  exact ⟨he,he.unsaturated ht hf⟩

section Sample

/-- One plain and one nonblocking write on the first connection, then the handler of the
plain one. -/
def sendOps : List StepOp :=
  connectOps ++ [.caller (.write .move [1,2,3] none ⟨false,false⟩),.caller (.tryWrite .move [4,5] ⟨false,false⟩),
    .handler .none,.handler .none]

/-- `run_exact_counters` on a run with a batch of three bytes under way and two bytes posted. -/
theorem exact_counters_sample :
    ((init sampleSettings : State ℤ).run sampleConfig sendOps).counters = ⟨5,0,0⟩ ∧
    ((init sampleSettings : State ℤ).run sampleConfig sendOps).Exact :=
  ⟨by decide +kernel,(run_exact_counters sampleConfig sampleSettings sendOps (by decide +kernel) (by decide +kernel)).1⟩

/-- The run with a copy whose pooled attempt fails after its reservation. -/
def leakOps : List StepOp :=
  connectOps ++ [.caller (.write (.copy false ⟨false,true⟩ false) [1,2,3] none ⟨false,false⟩)]

/-- Three bytes are posted and six are reserved, before any stop. -/
theorem copy_overcounts :
    ((init sampleSettings : State ℤ).run sampleConfig leakOps).stopRequested = false ∧
    ¬ ((init sampleSettings : State ℤ).run sampleConfig leakOps).Exact := by
  have hreserved : ((init sampleSettings : State ℤ).run sampleConfig leakOps).counters.inflightBytes = 6 := by
    decide +kernel
  have hposted : totalBytes (plainPosted ((init sampleSettings : State ℤ).run sampleConfig leakOps).currentSeq
      ((init sampleSettings : State ℤ).run sampleConfig leakOps).posted) = 3 := by decide +kernel
  refine ⟨by decide +kernel,fun he => ?_⟩
  have hinflight := he.inflight
  rw [hreserved, hposted] at hinflight
  cases hinflight

end Sample
end State
end Wirestead.Transport.TcpClient
