import Wirestead.Transport.TcpClient.Counting

/-! # Writes keep the order of their admission

A connection has one line: what the running handler has taken, the queue, and the parked
requests. Admissions join it at the end through the posted handlers and writes leave it at
the front, as long as no nonblocking write passes parked requests. Requests of an earlier
connection that were left in the line have ended, and the ledger lets no batch with one
through.
-/
namespace Wirestead.Transport.TcpClient
open Diagnostics Sizes

section Traces

def Event.admitted? (connection : ℕ) : Event → Option TrackedBuffer
  | .accepted item c _ => if c = connection then some item else none
  | .asyncWrite _ _ => none

def Event.handed (connection : ℕ) : Event → List TrackedBuffer
  | .accepted _ _ _ => []
  | .asyncWrite c batch => if c = connection then batch.buffers else []

/-- The requests of a connection in the order of their admission. -/
def admitted (connection : ℕ) (trace : List Event) : List TrackedBuffer :=
  trace.reverse.filterMap (Event.admitted? connection)

/-- The requests handed to `async_write` on a connection, in order. -/
def handed (connection : ℕ) (trace : List Event) : List TrackedBuffer :=
  trace.reverse.flatMap (Event.handed connection)

/-- The posted writes of a connection. -/
def Handler.on? (connection : ℕ) : Handler → Option TrackedBuffer
  | .write item _ c => if c = connection then some item else none
  | .tryWrite item _ c => if c = connection then some item else none
  | _ => none

def postedOn (connection : ℕ) (posted : List Handler) : List TrackedBuffer :=
  posted.filterMap (Handler.on? connection)

@[simp]
theorem admitted_cons (connection : ℕ) (e : Event) (trace : List Event) :
    admitted connection (e :: trace) = admitted connection trace ++ (e.admitted? connection).toList := by
  unfold admitted
  rw [List.reverse_cons, List.filterMap_append, List.filterMap_cons]
  cases e.admitted? connection <;> rfl

@[simp]
theorem handed_cons (connection : ℕ) (e : Event) (trace : List Event) :
    handed connection (e :: trace) = handed connection trace ++ e.handed connection := by
  unfold handed
  rw [List.reverse_cons, List.flatMap_append, List.flatMap_singleton]

@[simp]
theorem postedOn_append (connection : ℕ) (l r : List Handler) :
    postedOn connection (l ++ r) = postedOn connection l ++ postedOn connection r := List.filterMap_append

@[simp]
theorem postedOn_cons (connection : ℕ) (handler : Handler) (rest : List Handler) :
    postedOn connection (handler :: rest) = (handler.on? connection).toList ++ postedOn connection rest := by
  unfold postedOn
  rw [List.filterMap_cons]
  cases handler.on? connection <;> rfl

/-- A handler that holds nothing for the connection is taken. -/
theorem postedOn_pop {connection : ℕ} {posted rest : List Handler} {handler : Handler}
    (hp : posted = handler :: rest) (hon : handler.on? connection = none) :
    postedOn connection rest = postedOn connection posted := by
  rw [hp, postedOn_cons, hon]
  rfl

theorem on?_eq_none {handler : Handler} (h : handler.item? = none) (connection : ℕ) :
    handler.on? connection = none := by
  cases handler with
  | write item s c => cases h
  | tryWrite item s c => cases h
  | _ => rfl

end Traces

section Ages
variable {N : Type*} [CommRing N]

/-- What had ended stays so. -/
structure Ages (c d : Ledger N) : Prop where
  valid : d.Valid
  nextId : c.nextId ≤ d.nextId
  ended : ∀ id ≤ c.nextId, c.contains id = false → d.contains id = false

/-- Every one of these requests has ended. -/
def Ended (c : Ledger N) (items : List TrackedBuffer) : Prop :=
  ∀ item ∈ items, item.request ≤ c.nextId ∧ c.contains item.request = false

variable {c d e : Ledger N}

omit [CommRing N] in
theorem Ages.refl (h : c.Valid) : Ages c c := ⟨h,le_rfl,fun _ _ => id⟩

omit [CommRing N] in
theorem Ages.trans (h : Ages c d) (h' : Ages d e) : Ages c e :=
  ⟨h'.valid,h.nextId.trans h'.nextId,fun id hid hc => h'.ended id (hid.trans h.nextId) (h.ended id hid hc)⟩

omit [CommRing N] in
theorem ages_of_retires (h : c.Retires d) : Ages c d := by
  refine ⟨h.valid,h.nextId.ge,fun id _ hc => ?_⟩
  cases hd : d.contains id with
  | false => rfl
  | true =>
    rw [h.live id hd] at hc
    cases hc

omit [CommRing N] in
theorem ages_of_relabels (hv : c.Valid) (h : Sender.Relabels c d) : Ages c d := by
  obtain ⟨hd,hn,hcontains⟩ := h hv
  exact ⟨hd,hn,fun id _ hc => (hcontains id).trans hc⟩

theorem ages_admitRequest (hv : c.Valid) (bytes : ℕ) (group : Option ℕ) : Ages c (c.admitRequest bytes group).1 := by
  obtain ⟨hd,-,hn,hlive⟩ := hv.admitRequest_live bytes group
  refine ⟨hd,by omega,fun id hid hc => ?_⟩
  rw [← Bool.not_eq_true, hlive]
  rintro (h | h)
  · rw [h] at hc
    cases hc
  · omega

omit [CommRing N] in
theorem Ended.ages {items : List TrackedBuffer} (he : Ended c items) (h : Ages c d) : Ended d items := by
  intro item hm
  obtain ⟨hle,hc⟩ := he item hm
  exact ⟨hle.trans h.nextId,h.ended _ hle hc⟩

end Ages

namespace Sender
variable {N : Type*} [CommRing N] {cfg : Config} {allow : Flaw → Prop} {h h' : Hand} {a a' : Sender N}

theorem disconnect_ages (hv : a.ledger.Valid) : Ages a.ledger a.disconnect.ledger := by
  unfold Sender.disconnect
  split
  · exact ages_of_retires (Ledger.retires_endAll hv .connectionLoss)
  · exact .refl hv

omit [CommRing N] in
theorem relieve_ledger : (a.relieve cfg).ledger = a.ledger := by
  unfold Sender.relieve
  split <;> rfl

theorem move_ages (hm : Move cfg allow (h,a) (h',a')) (hv : a.ledger.Valid) : Ages a.ledger a'.ledger := by
  cases hm with
  | lose => exact disconnect_ages hv
  | strand => exact disconnect_ages hv
  | restart =>
    unfold Sender.restart Sender.disconnect
    dsimp only
    split
    · exact ages_of_retires (Ledger.retires_endAll hv .connectionLoss)
    · exact .refl hv
  | plain => exact ages_admitRequest hv _ _
  | tryPlain => exact ages_admitRequest hv _ _
  | leak _ _ _ ledger _ _ _ _ _ hr => exact ages_of_relabels hv hr
  | relabel _ _ ledger hr => exact ages_of_relabels hv hr
  | stop => exact ages_of_retires (Ledger.retires_endAll hv .explicitStop)
  | write _ buffers => exact ages_of_retires (hv.retires_beginBatch _)
  | writeThrows _ buffers =>
    have hrecord : Ages a.ledger (a.record buffers (totalBytes buffers)).ledger :=
      ages_of_retires (hv.retires_beginBatch _)
    exact hrecord.trans (disconnect_ages hrecord.valid)
  | relieve =>
    rw [relieve_ledger]
    exact .refl hv
  | complete _ l r o seq b n =>
    rw [relieve_ledger]
    exact ages_of_retires (hv.retires_completeBatch _ n)
  | completeStale _ l r o seq connection b n => exact ages_of_retires (hv.retires_completeBatch _ n)
  | fail _ l r o seq b n =>
    have hsettled : Ages a.ledger (a.settle b n).ledger := ages_of_retires (hv.retires_completeBatch _ n)
    have hd := disconnect_ages (a := ({ a.settle b n with outstanding := o } : Sender N)) hsettled.valid
    exact hsettled.trans hd
  | _ => exact .refl hv

/-- The line of the connection. -/
def line (h : Hand) (a : Sender N) : List TrackedBuffer := h.front ++ a.tx ++ a.pending

/-- Requests are parked only under pressure. -/
def Parked (a : Sender N) : Prop := a.pending ≠ [] → a.backpressureActive = true

theorem Parked.move (hp : Parked a) (hm : Move cfg allow (h,a) (h',a')) : Parked a' := by
  have hnil : ∀ {b : Sender N}, b.pending = [] → Parked b := fun hn hne => absurd hn hne
  have hrelieve : ∀ {b : Sender N}, Parked b → Parked (b.relieve cfg) := by
    intro b hb
    unfold Sender.relieve
    split
    · exact hnil rfl
    · exact hb
  cases hm with
  | lose => exact hnil rfl
  | strand =>
    unfold Sender.disconnect
    split
    · exact hp
    · exact hp
  | purge => exact hnil rfl
  | restart => exact hnil rfl
  | writeThrows => exact hnil rfl
  | halt => exact hnil rfl
  | on => exact fun _ => rfl
  | relieve => exact hrelieve hp
  | park _ _ _ _ _ hb => exact fun _ => hb
  | complete => exact hrelieve hp
  | fail => exact hnil rfl
  | _ => exact hp

/-- What holds of the line: behind requests that have ended stand those of the present
connection that were admitted and not yet handed over. -/
structure Ordered (h : Hand) (a : Sender N) : Prop where
  valid : a.ledger.Valid
  issued : ∀ item ∈ a.line h, item.request ≤ a.ledger.nextId
  posted : ∀ handler ∈ a.posted, ∀ item, handler.item? = some item → item.request ≤ a.ledger.nextId
  future : ∀ c, a.connectionSeq < c → admitted c a.trace = []
  isPrefix : ∀ c, handed c a.trace <+: admitted c a.trace
  held : ∀ buffers, h = .batch buffers → buffers ≠ []
  down : a.connected = false → admitted a.connectionSeq a.trace = [] ∧ Ended a.ledger (a.line h)
  queued : a.connected = true → a.stopRequested = false → ∃ old new, a.line h = old ++ new ∧ Ended a.ledger old ∧
    handed a.connectionSeq a.trace ++ new ++ postedOn a.connectionSeq a.posted = admitted a.connectionSeq a.trace

omit [CommRing N] in
/-- The connection, its line and its posts are as they were. -/
theorem Ordered.keep {b : Sender N} (hd : Ordered h a) (hg : Ages a.ledger b.ledger)
    (hc : b.connectionSeq = a.connectionSeq) (ht : b.trace = a.trace) (hup : b.connected = a.connected)
    (hline : ∀ item ∈ b.line h', item ∈ a.line h)
    (hposted : ∀ handler ∈ b.posted, handler.item? = none ∨ handler ∈ a.posted)
    (hheld : ∀ buffers, h' = .batch buffers → buffers ≠ [])
    (hsame : a.connected = true → b.stopRequested = false → a.stopRequested = false ∧ b.line h' = a.line h ∧
      postedOn a.connectionSeq b.posted = postedOn a.connectionSeq a.posted) : Ordered h' b := by
  refine ⟨hg.valid,fun item hm => (hd.issued item (hline item hm)).trans hg.nextId,fun handler hm item hi => ?_,
    ?_,?_,hheld,fun hdown => ?_,fun hconn hs => ?_⟩
  · rcases hposted handler hm with hn | hm
    · rw [hn] at hi
      cases hi
    · exact (hd.posted handler hm item hi).trans hg.nextId
  · rw [hc, ht]
    exact hd.future
  · rw [ht]
    exact hd.isPrefix
  · rw [hup] at hdown
    obtain ⟨hadmitted,hended⟩ := hd.down hdown
    rw [hc, ht]
    exact ⟨hadmitted,fun item hm => hended.ages hg item (hline item hm)⟩
  · rw [hup] at hconn
    obtain ⟨hstop,hl,hp⟩ := hsame hconn hs
    obtain ⟨old,new,hsplit,hended,hall⟩ := hd.queued hconn hstop
    rw [hc, ht, hl, hp]
    exact ⟨old,new,hsplit,hended.ages hg,hall⟩

/-- The end of a connection ends what is left in its line. -/
theorem Ordered.disconnect (hd : Ordered .empty a) : Ordered .empty a.disconnect := by
  unfold Sender.disconnect
  split
  · have hg : Ages a.ledger (a.ledger.endAll .connectionLoss) :=
      ages_of_retires (Ledger.retires_endAll hd.valid .connectionLoss)
    refine ⟨hg.valid,fun item hm => (hd.issued item hm).trans hg.nextId,
      fun handler hm item hi => (hd.posted handler hm item hi).trans hg.nextId,fun c hlt => ?_,hd.isPrefix,
      (fun _ hn => nomatch hn),fun _ => ⟨hd.future _ (Nat.lt_succ_self _),fun item hm => ?_⟩,
      (fun hn => nomatch hn)⟩
    · exact hd.future c ((Nat.lt_succ_self _).trans hlt)
    · exact ⟨(hd.issued item hm).trans hg.nextId,Ledger.contains_endAll .connectionLoss _⟩
  · exact hd

omit [CommRing N] in
/-- The queues are emptied while no connection is up. -/
theorem Ordered.clear (hd : Ordered .empty a) (hc : a.connected = false) {batch : Option WriteBatch} :
    Ordered .empty { a.clear with activeWrite := batch } := by
  refine hd.keep (.refl hd.valid) rfl rfl rfl (fun item hm => ?_) (fun _ => .inr)
    (fun _ hn => nomatch hn) (fun hup => absurd (hc.symm.trans hup) (by simp))
  simp [line, Sender.clear, Hand.front] at hm

theorem Ordered.lose (hd : Ordered .empty a) : Ordered .empty a.lose :=
  hd.disconnect.clear a.disconnect_connected

omit [CommRing N] in
theorem Ordered.relieve (hd : Ordered h a) : Ordered h (a.relieve cfg) := by
  have hl : (a.relieve cfg).line h = a.line h := by
    unfold Sender.relieve
    split
    · simp [line]
    · rfl
  revert hl
  unfold Sender.relieve
  split
  · intro hl
    exact hd.keep (.refl hd.valid) rfl rfl rfl (fun item hm => hl ▸ hm) (fun _ => .inr)
      hd.held (fun _ hs => ⟨hs,hl,rfl⟩)
  · exact fun _ => hd

omit [CommRing N] in
/-- The oldest post of the connection joins the end of its line. -/
theorem Ordered.join {b : Sender N} (hd : Ordered .empty a) {handler : Handler} {item : TrackedBuffer}
    {rest : List Handler} (hp : a.posted = handler :: rest) (hi : handler.item? = some item)
    (hon : handler.on? a.connectionSeq = some item) (hup : a.connected = true) (hs : a.stopRequested = false)
    (hledger : b.ledger = a.ledger) (hc : b.connectionSeq = a.connectionSeq) (ht : b.trace = a.trace)
    (hconn : b.connected = true) (hposted : b.posted = rest) (hl : b.line h' = a.line .empty ++ [item])
    (hheld : ∀ buffers, h' = .batch buffers → buffers ≠ []) :
    Ordered h' b := by
  have hmem : handler ∈ a.posted := hp ▸ List.mem_cons_self
  obtain ⟨old,new,hsplit,hended,hall⟩ := hd.queued hup hs
  constructor
  · rw [hledger]
    exact hd.valid
  · intro k hk
    rw [hledger]
    rw [hl] at hk
    rcases List.mem_append.mp hk with hk | hk
    · exact hd.issued k hk
    · rw [List.mem_singleton.mp hk]
      exact hd.posted handler hmem item hi
  · intro k hk
    rw [hledger]
    rw [hposted] at hk
    exact hd.posted k (hp ▸ List.mem_cons_of_mem _ hk)
  · rw [hc, ht]
    exact hd.future
  · rw [ht]
    exact hd.isPrefix
  · exact hheld
  · intro hdown
    rw [hconn] at hdown
    cases hdown
  · intro _ _
    refine ⟨old,new ++ [item],?_,?_,?_⟩
    · rw [hl, hsplit, List.append_assoc]
    · rw [hledger]
      exact hended
    · rw [hc, ht, ← hall, hposted, hp, postedOn_cons, hon]
      simp

/-- An admission is posted behind all others. -/
theorem Ordered.accept (hd : Ordered h a) (hup : a.connected = true) {data : List UInt8} {counters : Counters}
    {handler : TrackedBuffer → Handler} (hi : ∀ item, (handler item).item? = some item)
    (hon : ∀ item, (handler item).on? a.connectionSeq = some item) :
    Ordered h (({ a with counters := counters } : Sender N).accept data handler) := by
  have hg : Ages a.ledger (a.ledger.admitRequest data.length none).1 := ages_admitRequest hd.valid _ _
  have hnext : (a.ledger.admitRequest data.length none).1.nextId = a.ledger.nextId + 1 :=
    (hd.valid.admitRequest_live data.length none).2.2.1
  have hpast : ∀ c ≠ a.connectionSeq, Event.admitted? c (.accepted ⟨data,a.ledger.nextId + 1⟩ a.connectionSeq
      a.connected) = none := fun c hc => if_neg hc.symm
  refine ⟨hg.valid,fun item hm => (hd.issued item hm).trans hg.nextId,fun k hk item hki => ?_,fun c hlt => ?_,
    fun c => ?_,hd.held,fun hn => absurd (hn.symm.trans hup) (by simp),fun _ hs => ?_⟩
  · change item.request ≤ (a.ledger.admitRequest data.length none).1.nextId
    rcases List.mem_append.mp hk with hk | hk
    · exact (hd.posted k hk item hki).trans hg.nextId
    · rw [List.mem_singleton.mp hk, hi] at hki
      injection hki with hki
      rw [← hki, hnext]
  · change admitted c (_ :: a.trace) = []
    rw [admitted_cons, hd.future c hlt]
    exact congrArg Option.toList (hpast c (Nat.ne_of_gt hlt))
  · change handed c (_ :: a.trace) <+: admitted c (_ :: a.trace)
    rw [admitted_cons, handed_cons]
    rw [show Event.handed c (.accepted _ _ _) = [] from rfl, List.append_nil]
    exact (hd.isPrefix c).trans (List.prefix_append _ _)
  · obtain ⟨old,new,hsplit,hended,hall⟩ := hd.queued hup hs
    refine ⟨old,new,hsplit,hended.ages hg,?_⟩
    change handed a.connectionSeq (_ :: a.trace) ++ new ++ postedOn a.connectionSeq (a.posted ++ [_]) =
      admitted a.connectionSeq (_ :: a.trace)
    rw [admitted_cons, handed_cons, postedOn_append, postedOn_cons, hon, ← hall]
    simp [Event.handed, Event.admitted?, postedOn]

omit [CommRing N] in
/-- A batch that the ledger lets through is the front of what was admitted. -/
theorem Ordered.record {buffers : List TrackedBuffer} (hd : Ordered (.batch buffers) a) (hup : a.connected = true)
    (hs : a.stopRequested = false) (hb : (a.ledger.beginBatch (buffers.map (·.request))).2 = true)
    {o : List Outstanding} :
    Ordered .empty ({ a.record buffers (totalBytes buffers) with outstanding := o } : Sender N) := by
  have hg : Ages a.ledger (a.ledger.beginBatch (buffers.map (·.request))).1 :=
    ages_of_retires (hd.valid.retires_beginBatch _)
  obtain ⟨old,new,hsplit,hended,hall⟩ := hd.queued hup hs
  -- a leftover at the front would have made the ledger refuse the batch
  have hold : old = [] := by
    cases old with
    | nil => rfl
    | cons first others =>
      cases buffers with
      | nil => exact absurd rfl (hd.held [] rfl)
      | cons item rest =>
        obtain ⟨rfl,-⟩ := List.cons.inj hsplit
        have hlive := hd.valid.beginBatch_live hb item.request (by simp)
        rw [(hended item List.mem_cons_self).2] at hlive
        cases hlive
  rw [hold, List.nil_append] at hsplit
  have hsub : ∀ item ∈ a.tx ++ a.pending, item ∈ a.line (.batch buffers) := by
    intro item hm
    unfold line
    rw [List.append_assoc]
    exact List.mem_append_right _ hm
  have hline : buffers ++ (a.tx ++ a.pending) = new := by
    rw [← hsplit, line, List.append_assoc]
    rfl
  refine ⟨hg.valid,fun item hm => (hd.issued item (hsub item hm)).trans hg.nextId,
    fun k hk item hki => (hd.posted k hk item hki).trans hg.nextId,fun c hlt => ?_,fun c => ?_,
    (fun _ hn => nomatch hn),fun hn => absurd (hn.symm.trans hup) (by simp),fun _ _ => ?_⟩
  · change admitted c (_ :: a.trace) = []
    rw [admitted_cons, hd.future c hlt]
    rfl
  · change handed c (_ :: a.trace) <+: admitted c (_ :: a.trace)
    rw [admitted_cons, handed_cons]
    by_cases hc : a.connectionSeq = c
    · subst hc
      rw [← hall, ← hline]
      simp only [Event.handed, Event.admitted?, if_true, Option.toList_none, List.append_nil, List.append_assoc]
      rw [List.prefix_append_right_inj]
      exact List.prefix_append _ _
    · simp only [Event.handed, Event.admitted?, if_neg hc, Option.toList_none, List.append_nil]
      exact hd.isPrefix c
  · refine ⟨[],a.tx ++ a.pending,rfl,(fun _ hm => nomatch hm),?_⟩
    change handed a.connectionSeq (_ :: a.trace) ++ _ ++ postedOn a.connectionSeq a.posted =
      admitted a.connectionSeq (_ :: a.trace)
    rw [admitted_cons, handed_cons, ← hall, ← hline]
    simp [Event.handed, Event.admitted?]

omit [CommRing N] in
/-- A connection that is down has no posts. -/
theorem Ranked.postedOn_of_down (hr : Ranked a) (hc : a.connected = false) : postedOn a.connectionSeq a.posted = [] := by
  unfold postedOn
  rw [List.filterMap_eq_nil_iff]
  intro handler hh
  have hdown : ∀ {item seq c}, a.Posts item seq c → c ≠ a.connectionSeq := by
    intro item seq c hp heq
    have hup := (hr.current hp heq).1
    simp [hc] at hup
  cases handler with
  | write item seq c => exact if_neg (hdown (.inl hh))
  | tryWrite item seq c => exact if_neg (hdown (.inr hh))
  | _ => rfl

omit [CommRing N] in
/-- A post that is dropped was not made for the present connection. -/
theorem Ranked.on?_of_drop (hr : Ranked a) {handler : Handler} {item : TrackedBuffer} {seq connection : ℕ}
    (hmem : handler ∈ a.posted) (hdrop : handler = .write item seq connection ∧ seq ≠ a.currentSeq ∨
      handler = .tryWrite item seq connection ∧ (seq ≠ a.currentSeq ∨ connection ≠ a.connectionSeq)) :
    handler.on? a.connectionSeq = none := by
  rcases hdrop with ⟨rfl,hseq⟩ | ⟨rfl,hseq⟩
  · exact if_neg fun heq => hseq (hr.current (.inl hmem) heq).2
  · refine if_neg fun heq => ?_
    rcases hseq with hseq | hseq
    · exact hseq (hr.current (.inr hmem) heq).2
    · exact hseq heq

omit [CommRing N] in
theorem Fit.open (hf : Fit cfg h a) (hup : a.connected = true) (hs : a.stopRequested = false) : a.Open := by
  have hst := hf.linked hup
  exact ⟨hs,by simp [hst],by simp [hst]⟩

omit [CommRing N] in
/-- The first handler is taken and nothing of this connection with it. -/
theorem Ordered.pop (hd : Ordered .empty a) {handler : Handler} {rest : List Handler} {counters : Counters}
    (hp : a.posted = handler :: rest)
    (hon : a.connected = true → a.stopRequested = false → handler.on? a.connectionSeq = none) :
    Ordered .empty { a with posted := rest, counters := counters } :=
  hd.keep (.refl hd.valid) rfl rfl rfl (fun _ => id) (fun _ hk => .inr (hp ▸ List.mem_cons_of_mem _ hk)) hd.held
    (fun hup hs => ⟨hs,rfl,postedOn_pop hp (hon hup hs)⟩)

omit [CommRing N] in
/-- A handler that is no write is posted. -/
theorem Ordered.post (hd : Ordered h a) {handler : Handler} (hi : handler.item? = none) :
    Ordered h { a with posted := a.posted ++ [handler] } := by
  refine hd.keep (.refl hd.valid) rfl rfl rfl (fun _ => id) (fun k hk => ?_) hd.held (fun _ hs => ⟨hs,rfl,?_⟩)
  · rcases List.mem_append.mp hk with hk | hk
    · exact .inr hk
    · rw [List.mem_singleton.mp hk]
      exact .inl hi
  · rw [postedOn_append, postedOn_cons, on?_eq_none hi]
    simp [postedOn]

omit [CommRing N] in
/-- What is queued when a connection comes up is left over from earlier ones. -/
theorem Ordered.connect (hd : Ordered .empty a) (hr : Ranked a) :
    Ordered .empty { a with connected := true, state := .connected } := by
  cases hup : a.connected with
  | true =>
    exact hd.keep (.refl hd.valid) rfl rfl hup.symm (fun _ => id) (fun _ => .inr) hd.held (fun _ hs => ⟨hs,rfl,rfl⟩)
  | false =>
    obtain ⟨hadmitted,hended⟩ := hd.down hup
    refine ⟨hd.valid,hd.issued,hd.posted,hd.future,hd.isPrefix,hd.held,(fun hn => (by cases hn)),fun _ _ => ?_⟩
    refine ⟨a.line .empty,[],(List.append_nil _).symm,hended,?_⟩
    have hhanded := hd.isPrefix a.connectionSeq
    rw [hadmitted, List.prefix_nil] at hhanded
    change handed a.connectionSeq a.trace ++ [] ++ postedOn a.connectionSeq a.posted = admitted a.connectionSeq a.trace
    rw [hhanded, hr.postedOn_of_down hup, hadmitted]
    rfl

theorem Ordered.move (hd : Ordered h a) (hpk : Parked a) (hr : Ranked a) (hf : Fit cfg h a)
    (hovertake : ¬ allow .overtake)
    (hm : Move cfg allow (h,a) (h',a')) : Ordered h' a' := by
  have hg := move_ages hm hd.valid
  have hempty : ∀ buffers, Hand.empty = .batch buffers → buffers ≠ [] := fun _ hn => (by cases hn)
  cases hm with
  | pop _ handler rest hp hi => exact hd.pop hp (fun _ _ => on?_eq_none hi _)
  | connect => exact hd.connect hr
  | lose => exact hd.lose
  | strand => exact hd.disconnect
  | purge _ hc => exact hd.clear hc
  | restart _ hst =>
    have hc := hf.down hst
    revert hg
    unfold Sender.restart Sender.disconnect
    dsimp only
    rw [if_neg (by simp [hc])]
    intro hg
    refine hd.keep hg rfl rfl rfl (fun item hm => ?_) (fun k hk => ?_) hd.held
      (fun hup => absurd (hc.symm.trans hup) (by simp))
    · rw [line, List.append_nil] at hm
      exact List.mem_append_left _ hm
    · rcases List.mem_append.mp hk with hk | hk
      · exact .inr hk
      · rw [List.mem_singleton.mp hk]
        exact .inl rfl
  | post _ _ handler hi => exact hd.post hi
  | plain _ _ data ha => exact hd.accept ha.connected (fun _ => rfl) (fun _ => if_pos rfl)
  | tryPlain _ _ data ha => exact hd.accept ha.connected (fun _ => rfl) (fun _ => if_pos rfl)
  | stop => exact hd.keep hg rfl rfl rfl (fun _ => id) (fun _ => .inr) hd.held (fun _ hs => (by cases hs))
  | take _ _ buffers rest hmay _ _ htx hne =>
    have hl : ({ a with writing := true, tx := rest } : Sender N).line (.batch buffers) = a.line h := by
      rw [line, line, htx, Hand.front_of_mayWrite hmay]
      rfl
    refine hd.keep hg rfl rfl rfl (fun item hm => hl ▸ hm) (fun _ => .inr) (fun b hb => ?_)
      (fun _ hs => ⟨hs,hl,rfl⟩)
    cases hb
    exact hne
  | putBack _ buffers =>
    have hl : ({ a with tx := buffers ++ a.tx, writing := false } : Sender N).line .empty = a.line (.batch buffers) := by
      simp [line, Hand.front]
    exact hd.keep hg rfl rfl rfl (fun item hm => hl ▸ hm) (fun _ => .inr) hempty (fun _ hs => ⟨hs,hl,rfl⟩)
  | write _ buffers o hs hb ho => exact hd.record (hf.busy id).2 hs hb
  | writeThrows _ buffers hs hb =>
    have hrecord : Ordered .empty (a.record buffers (totalBytes buffers)) :=
      hd.record (hf.busy id).2 hs hb (o := a.outstanding)
    exact hrecord.lose
  | idle _ _ hmay =>
    have hl : ({ a with writing := false } : Sender N).line .empty = a.line h := by
      rw [line, line, Hand.front_of_mayWrite hmay]
      rfl
    exact hd.keep hg rfl rfl rfl (fun item hm => hl ▸ hm) (fun _ => .inr) hempty (fun _ hs => ⟨hs,hl,rfl⟩)
  | halt _ _ hmay hst =>
    refine hd.keep hg rfl rfl rfl (fun item hm => ?_) (fun _ => .inr) hempty
      (fun _ hs => absurd (hst.symm.trans hs) (by simp))
    simp [line, Hand.front] at hm
  | on => exact hd.keep hg rfl rfl rfl (fun _ => id) (fun _ => .inr) hd.held (fun _ hs => ⟨hs,rfl,rfl⟩)
  | relieve => exact hd.relieve
  | route _ item rest hp ho hbp =>
    have hup := (hr.current (.inl (hp ▸ List.mem_cons_self)) rfl).1
    have hpending : a.pending = [] := by
      by_contra hne
      rw [hpk hne] at hbp
      cases hbp
    refine hd.join hp rfl (if_pos rfl) hup ho.1 rfl rfl rfl hup rfl ?_ (fun _ hn => (by cases hn))
    simp [line, hpending, Hand.front]
  | park _ item rest hp ho hbp =>
    have hup := (hr.current (.inl (hp ▸ List.mem_cons_self)) rfl).1
    refine hd.join hp rfl (if_pos rfl) hup ho.1 rfl rfl rfl hup rfl ?_ hempty
    simp [line, Hand.front]
  | drop _ handler rest item seq connection hp hdrop =>
    exact hd.pop hp (fun _ _ => hr.on?_of_drop (hp ▸ List.mem_cons_self) hdrop)
  | unreserve _ item rest connection hp hc =>
    exact hd.pop hp (fun hup hs => if_neg (hc.resolve_right (not_not.mpr (hf.open hup hs))))
  | routeTry _ item rest hp ho hpending =>
    have hup := (hr.current (.inr (hp ▸ List.mem_cons_self)) rfl).1
    have hpending : a.pending = [] := hpending.resolve_right hovertake
    refine hd.join hp rfl (if_pos rfl) hup ho.1 rfl rfl rfl hup rfl ?_ (fun _ hn => (by cases hn))
    simp [line, hpending, Hand.front]
  | unreserveTry _ item rest hp ho =>
    exact hd.pop hp (fun hup hs => absurd (hf.open hup hs) ho)
  | complete _ l r o seq b n =>
    rw [relieve_ledger] at hg
    refine Ordered.relieve ?_
    exact hd.keep hg rfl rfl rfl (fun _ => id) (fun _ => .inr) (fun _ hn => (by cases hn))
      (fun _ hs => ⟨hs,rfl,rfl⟩)
  | fail _ l r o seq b n =>
    have hsettled : Ordered .empty ({ a.settle b n with outstanding := o } : Sender N) :=
      hd.keep (ages_of_retires (hd.valid.retires_completeBatch _ n)) rfl rfl rfl (fun _ => id) (fun _ => .inr)
        hd.held (fun _ hs => ⟨hs,rfl,rfl⟩)
    exact hsettled.lose
  | queue =>
    exact hd.keep hg rfl rfl rfl (fun _ => id) (fun _ => .inr) (fun _ hn => (by cases hn))
      (fun _ hs => ⟨hs,rfl,rfl⟩)
  | written => exact hd.keep hg rfl rfl rfl (fun _ => id) (fun _ => .inr) hempty (fun _ hs => ⟨hs,rfl,rfl⟩)
  | giveUp => exact hd.keep hg rfl rfl rfl (fun _ => id) (fun _ => .inr) hempty (fun _ hs => ⟨hs,rfl,rfl⟩)
  | _ => exact hd.keep hg rfl rfl rfl (fun _ => id) (fun _ => .inr) hd.held (fun _ hs => ⟨hs,rfl,rfl⟩)

end Sender

namespace State
variable {N : Type*} [CommRing N]

/-- In every run in which no nonblocking write passes parked requests, each connection
hands its requests to the socket in the order of their admission. -/
theorem run_ordered (cfg : Config) (settings : Settings) (ops : List StepOp)
    (hops : Heeds cfg (fun flaw => flaw ≠ .overtake) (init settings : State N) ops) (connection : ℕ) :
    handed connection ((init settings : State N).run cfg ops).trace <+:
      admitted connection ((init settings : State N).run cfg ops).trace := by
  obtain ⟨-,-,-,hd⟩ := run_keeps (J := fun h a => Sender.Ranked a ∧ Sender.Parked a ∧ Sender.Ordered h a)
    (fun hm hf ⟨hr,hp,hd⟩ => ⟨hr.move hf hm,hp.move hm,hd.move hp hr hf (by simp) hm⟩) settings ops
    ⟨Sender.ranked_init settings,fun hn => absurd rfl hn,
      ⟨Ledger.valid_new,fun _ hm => (by cases hm),fun _ hm => (by cases hm),fun _ _ => rfl,
        fun _ => List.prefix_rfl,fun _ hn => (by cases hn),
        fun _ => ⟨rfl,fun _ hm => (by cases hm)⟩,fun hn => (by cases hn)⟩⟩ hops
  exact hd.isPrefix connection

section Sample

/-- `run_ordered` on a run whose plain write is under way and whose nonblocking one is posted. -/
theorem ordered_sample :
    handed 0 ((init sampleSettings : State ℤ).run sampleConfig sendOps).trace = [⟨[1,2,3],1⟩] ∧
    handed 0 ((init sampleSettings : State ℤ).run sampleConfig sendOps).trace <+:
      admitted 0 ((init sampleSettings : State ℤ).run sampleConfig sendOps).trace :=
  ⟨by decide +kernel,run_ordered sampleConfig sampleSettings sendOps (by decide +kernel) 0⟩

/-- Three requests are admitted before the strand runs: the first one raises the level to
the high mark, so that the second one is parked; the third is a nonblocking one. Then the
handlers run, and the first write completes. -/
def overtakeOps : List StepOp :=
  connectOps ++ [.caller (.write .move (List.replicate 1024 0) none ⟨false,false⟩),
    .caller (.write .move [1] none ⟨false,false⟩),.caller (.tryWrite .move [2] ⟨false,false⟩),
    .handler .none,.handler .none,.handler .none,.handler .none,.complete 2 ⟨.success,1024,false⟩ .none]

/-- The third request is handed over before the second one. -/
theorem try_overtakes :
    (handed 0 ((init sampleSettings : State ℤ).run sampleConfig overtakeOps).trace).map TrackedBuffer.request = [1,3,2] ∧
    (admitted 0 ((init sampleSettings : State ℤ).run sampleConfig overtakeOps).trace).map TrackedBuffer.request =
      [1,2,3] ∧
    ¬ handed 0 ((init sampleSettings : State ℤ).run sampleConfig overtakeOps).trace <+:
      admitted 0 ((init sampleSettings : State ℤ).run sampleConfig overtakeOps).trace := by
  have hhanded : (handed 0 ((init sampleSettings : State ℤ).run sampleConfig overtakeOps).trace).map
      TrackedBuffer.request = [1,3,2] := by decide +kernel
  have hadmitted : (admitted 0 ((init sampleSettings : State ℤ).run sampleConfig overtakeOps).trace).map
      TrackedBuffer.request = [1,2,3] := by decide +kernel
  refine ⟨hhanded,hadmitted,fun hp => ?_⟩
  have hmap := hp.map TrackedBuffer.request
  rw [hhanded, hadmitted] at hmap
  revert hmap
  decide

end Sample
end State
end Wirestead.Transport.TcpClient
