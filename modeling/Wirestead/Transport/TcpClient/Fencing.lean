import Wirestead.Diagnostics.LedgerLive
import Wirestead.Transport.TcpClient.Lifecycle

/-! # No data crosses a reconnect

The end of a connection instance terminates every ledger request. So a request that is
still live was accepted on the present instance, wherever its buffer is: posted, in
`tx_`, in `pending_` or returned from a batch. A batch is handed over only if all its
requests are live.
-/
namespace Wirestead.Transport.TcpClient
open Diagnostics

/-- Every write in the trace took buffers that were accepted before it, on the same
instance and while connected. -/
def Fenced : List Event → Prop
  | [] => True
  | .asyncWrite c b :: earlier => (∀ item ∈ b.buffers, .accepted item c true ∈ earlier) ∧ Fenced earlier
  | .accepted _ _ _ :: earlier => Fenced earlier

theorem Fenced.split {trace later earlier : List Event} {c : ℕ} {b : WriteBatch} (h : Fenced trace)
    (ht : trace = later ++ .asyncWrite c b :: earlier) :
    ∀ item ∈ b.buffers, .accepted item c true ∈ earlier := by
  subst ht
  induction later with
  | nil => exact h.1
  | cons e later ih =>
    cases e with
    | accepted item c connected => exact ih h
    | asyncWrite c b => exact ih h.2

namespace State
variable {N : Type*} [CommRing N] {s t u : State N}

def InFlight (s : State N) (seq c : ℕ) (b : WriteBatch) : Prop :=
  ∃ o ∈ s.outstanding, o.operation = .write seq c b

/-- The buffers that may still come to a write. -/
def Holds (s : State N) (item : TrackedBuffer) : Prop :=
  item ∈ s.tx ∨ item ∈ s.pending ∨ (∃ h ∈ s.posted, h.item? = some item) ∨
  ∃ seq c b, s.InFlight seq c b ∧ item ∈ b.buffers

/-- The request was issued, and if it is live it was accepted on this instance. -/
def Covered (s : State N) (item : TrackedBuffer) : Prop :=
  item.request ≤ s.ledger.nextId ∧
  (s.ledger.contains item.request = true → .accepted item s.connectionSeq true ∈ s.trace)

structure Good (s : State N) : Prop where
  valid : s.ledger.Valid
  covered : ∀ item, s.Holds item → s.Covered item
  fenced : Fenced s.trace
  token_lt : ∀ c b, .asyncWrite c b ∈ s.trace → b.token < s.nextToken
  token_unique : ∀ c b c' b', .asyncWrite c b ∈ s.trace → .asyncWrite c' b' ∈ s.trace →
    b.token = b'.token → c = c'
  started : ∀ seq c b, s.InFlight seq c b → .asyncWrite c b ∈ s.trace

/-- The invariant is kept, and so is what is known of a buffer in hand. -/
def Safe (s t : State N) : Prop := s.Good → t.Good ∧ ∀ item, s.Covered item → t.Covered item

omit [CommRing N] in
theorem Safe.refl (s : State N) : s.Safe s := fun h => ⟨h,fun _ hi => hi⟩

omit [CommRing N] in
theorem Safe.trans (h : s.Safe t) (h' : t.Safe u) : s.Safe u := by
  intro hs
  obtain ⟨ht,hc⟩ := h hs
  obtain ⟨hu,hc'⟩ := h' ht
  exact ⟨hu,fun item hi => hc' item (hc item hi)⟩

omit [CommRing N] in
/-- A step that writes nothing and takes no new buffer. -/
theorem safe_of_covered (hvalid : s.ledger.Valid → t.ledger.Valid)
    (hcov : s.ledger.Valid → ∀ item, s.Covered item → t.Covered item)
    (hholds : ∀ item, t.Holds item → s.Holds item) (htrace : t.trace = s.trace)
    (htoken : t.nextToken = s.nextToken)
    (hflight : ∀ seq c b, t.InFlight seq c b → s.InFlight seq c b) : s.Safe t := by
  intro hg
  refine ⟨?_,hcov hg.valid⟩
  constructor
  · exact hvalid hg.valid
  · exact fun item hi => hcov hg.valid item (hg.covered item (hholds item hi))
  · rw [htrace]
    exact hg.fenced
  · rw [htrace, htoken]
    exact hg.token_lt
  · rw [htrace]
    exact hg.token_unique
  · rw [htrace]
    exact fun seq c b hb => hg.started seq c b (hflight seq c b hb)

/-- Nothing that matters for the fence changes, except that buffers are dropped. -/
structure Quiet (s t : State N) : Prop where
  ledger : t.ledger = s.ledger
  connectionSeq : t.connectionSeq = s.connectionSeq
  trace : t.trace = s.trace
  nextToken : t.nextToken = s.nextToken
  queues : ∀ item, item ∈ t.tx ∨ item ∈ t.pending → item ∈ s.tx ∨ item ∈ s.pending
  posted : ∀ h ∈ t.posted, h ∈ s.posted ∨ h.item? = none
  inFlight : ∀ seq c b, t.InFlight seq c b → s.InFlight seq c b

namespace Quiet

omit [CommRing N] in
theorem holds (h : s.Quiet t) {item : TrackedBuffer} (hi : t.Holds item) : s.Holds item := by
  obtain hq | hq | ⟨k,hk,hki⟩ | ⟨seq,c,b,hb,hbi⟩ := hi
  · exact (h.queues item (.inl hq)).elim .inl (fun hp => .inr (.inl hp))
  · exact (h.queues item (.inr hq)).elim .inl (fun hp => .inr (.inl hp))
  · rcases h.posted k hk with hp | hp
    · exact .inr (.inr (.inl ⟨k,hp,hki⟩))
    · rw [hp] at hki
      cases hki
  · exact .inr (.inr (.inr ⟨seq,c,b,h.inFlight seq c b hb,hbi⟩))

omit [CommRing N] in
theorem covered (h : s.Quiet t) {item : TrackedBuffer} (hi : s.Covered item) : t.Covered item := by
  unfold Covered
  rw [h.ledger, h.connectionSeq, h.trace]
  exact hi

omit [CommRing N] in
theorem safe (h : s.Quiet t) : s.Safe t :=
  safe_of_covered (fun hv => h.ledger ▸ hv) (fun _ _ => h.covered) (fun _ => h.holds) h.trace h.nextToken
    h.inFlight

end Quiet

section Primitives

omit [CommRing N] in
theorem cancelWhere_quiet (s : State N) (p : Operation → Bool) : s.Quiet (s.cancelWhere p) := by
  refine ⟨rfl,rfl,rfl,rfl,fun _ h => h,fun _ h => .inl h,?_⟩
  rintro seq c b ⟨o,ho,hop⟩
  obtain ⟨o',ho',rfl⟩ := List.mem_map.mp ho
  refine ⟨o',ho',?_⟩
  rw [← hop]
  split <;> rfl

omit [CommRing N] in
theorem startOperation_quiet (s : State N) {operation : Operation}
    (h : operation.batch? = none) : s.Quiet (s.startOperation operation) := by
  refine ⟨rfl,rfl,rfl,rfl,fun _ h => h,fun _ h => .inl h,?_⟩
  rintro seq c b ⟨o,ho,hop⟩
  rcases List.mem_append.mp ho with ho | ho
  · exact ⟨o,ho,hop⟩
  · rw [List.mem_singleton.mp ho] at hop
    rw [show operation = .write seq c b from hop] at h
    cases h

omit [CommRing N] in
theorem post_quiet (s : State N) {handler : Handler} (h : handler.item? = none) :
    s.Quiet (s.post handler) := by
  refine ⟨rfl,rfl,rfl,rfl,fun _ h => h,fun k hk => ?_,fun _ _ _ h => h⟩
  rcases List.mem_append.mp hk with hk | hk
  · exact .inl hk
  · rw [List.mem_singleton.mp hk]
    exact .inr h

/-- The members that the fence reads. -/
structure View (N : Type*) where
  ledger : Ledger N
  connectionSeq : ℕ
  trace : List Event
  nextToken : ℕ
  posted : List Handler
  outstanding : List Outstanding
  tx : List TrackedBuffer
  pending : List TrackedBuffer

def senderView (v : Sender N) : View N :=
  ⟨v.ledger,v.connectionSeq,v.trace,v.nextToken,v.posted,v.outstanding,v.tx,v.pending⟩

def view (s : State N) : View N := senderView s.sender

omit [CommRing N] in
/-- Only members that the fence does not read are set, or the queues are emptied. -/
theorem quiet_of_view (h : t.view = s.view ∨ t.view = { s.view with pending := [] } ∨
    t.view = { s.view with tx := [], pending := [] }) : s.Quiet t := by
  have hview : t.ledger = s.ledger ∧ t.connectionSeq = s.connectionSeq ∧ t.trace = s.trace ∧
      t.nextToken = s.nextToken ∧ t.posted = s.posted ∧ t.outstanding = s.outstanding ∧
      (t.tx = s.tx ∨ t.tx = []) ∧ (t.pending = s.pending ∨ t.pending = []) := by
    rcases h with h | h | h <;>
      simp only [view, senderView, sender, View.mk.injEq] at h <;>
      simp only [h, or_true, true_or, and_self]
  obtain ⟨h1,h2,h3,h4,h5,h6,h7,h8⟩ := hview
  refine ⟨h1,h2,h3,h4,?_,?_,?_⟩
  · rintro item (hi | hi)
    · rcases h7 with h7 | h7 <;> rw [h7] at hi
      · exact .inl hi
      · cases hi
    · rcases h8 with h8 | h8 <;> rw [h8] at hi
      · exact .inr hi
      · cases hi
  · rw [h5]
    exact fun _ h => .inl h
  · rintro seq c b ⟨o,ho,hop⟩
    rw [h6] at ho
    exact ⟨o,ho,hop⟩

omit [CommRing N] in
theorem quiet_of_set (h : t.view = s.view) : s.Quiet t := quiet_of_view (.inl h)

omit [CommRing N] in
theorem quiet_of_cleared (h : t.view = { s.view with tx := [], pending := [] }) : s.Quiet t :=
  quiet_of_view (.inr (.inr h))

omit [CommRing N] in
theorem safe_of_set (h : t.view = s.view) : s.Safe t := (quiet_of_set h).safe

omit [CommRing N] in
/-- The ledger retires requests. -/
theorem safe_ledger (s : State N) {ledger : Ledger N} (h : s.ledger.Valid → s.ledger.Retires ledger) :
    s.Safe { s with ledger := ledger } := by
  refine safe_of_covered (fun hv => (h hv).valid) ?_ (fun _ hi => hi) rfl rfl (fun _ _ _ hb => hb)
  rintro hv item ⟨h1,h2⟩
  exact ⟨h1.trans (h hv).nextId.ge,fun hl => h2 ((h hv).live _ hl)⟩

/-- At the end of an instance no request stays live, so the next number is safe. -/
theorem markDisconnected_safe (s : State N) : s.Safe s.markDisconnected := by
  unfold markDisconnected
  split
  · have hr : s.ledger.Valid → s.ledger.Retires (s.ledger.endAll .connectionLoss) :=
      fun hv => Ledger.retires_endAll hv .connectionLoss
    refine safe_of_covered (fun hv => (hr hv).valid) ?_ (fun _ hi => hi) rfl rfl (fun _ _ _ hb => hb)
    rintro hv item ⟨h1,-⟩
    refine ⟨h1.trans (hr hv).nextId.ge,fun hl => ?_⟩
    exact absurd ((Ledger.contains_endAll _ _).symm.trans hl) (by simp)
  · exact .refl s

/-- The moves of the lifecycle keep the fence. -/
theorem safe_lifecycle : Lifecycle True (fun _ => True) (Safe : State N → State N → Prop) where
  refl := .refl
  trans := .trans
  set h := safe_of_set (congrArg senderView h)
  cancelWhere s p := (s.cancelWhere_quiet p).safe
  startOperation s _ h _ := (s.startOperation_quiet h).safe
  post s _ _ := (s.post_quiet rfl).safe
  enter _ _ h := safe_of_set ((congrArg senderView h).trans rfl)
  connect _ h := safe_of_set ((congrArg senderView h).trans rfl)
  lose {s t} h := by
    refine s.markDisconnected_safe.trans (quiet_of_cleared ?_).safe
    unfold view
    rw [h, Sender.lose, ← markDisconnected_sender]
    rfl
  strand _ := markDisconnected_safe
  purge _ h := (quiet_of_cleared ((congrArg senderView h).trans rfl)).safe
  rest _ h := safe_of_set ((congrArg senderView h).trans rfl)

end Primitives

section Callers
variable (cfg : Config)

/-- A rolled back admission has only used up an id. -/
theorem rollback_safe (s : State N) (bytes : ℕ) :
    s.Safe { s with ledger := (s.ledger.admitRequest bytes none).1.rollback (s.ledger.nextId + 1) } := by
  have hr : s.ledger.Valid → _ := fun hv => (hv.admitRequest_live bytes none).1.rollback_live (s.ledger.nextId + 1)
  refine safe_of_covered (fun hv => (hr hv).1.valid) ?_ (fun _ hi => hi) rfl rfl (fun _ _ _ hb => hb)
  rintro hv item ⟨h1,h2⟩
  obtain ⟨-,-,hnext,hlive⟩ := hv.admitRequest_live bytes none
  obtain ⟨hret,hroll⟩ := hr hv
  refine ⟨?_,fun hl => ?_⟩
  · have hn := hret.nextId
    dsimp only
    omega
  · obtain ⟨hl,hne⟩ := (hroll _).mp hl
    exact h2 (((hlive _).mp hl).resolve_right hne)

/-- Accepting on a live connection: the new request is fresh and belongs to it. -/
theorem accept_safe (s : State N) (data : List UInt8) (handler : TrackedBuffer → Handler)
    (hitem : ∀ item, (handler item).item? = some item) (hc : s.connected = true) :
    s.Safe { ({ s with ledger := (s.ledger.admitRequest data.length none).1 } : State N).post
        (handler ⟨data,s.ledger.nextId + 1⟩) with
      trace := .accepted ⟨data,s.ledger.nextId + 1⟩ s.connectionSeq s.connected :: s.trace } := by
  intro hg
  obtain ⟨hv,-,hnext,hlive⟩ := hg.valid.admitRequest_live data.length none
  set ledger := (s.ledger.admitRequest data.length none).1
  set item : TrackedBuffer := ⟨data,s.ledger.nextId + 1⟩
  have hcov : ∀ i, s.Covered i → ({ ({ s with ledger := ledger } : State N).post (handler item) with
      trace := .accepted item s.connectionSeq s.connected :: s.trace } : State N).Covered i := by
    rintro i ⟨h1,h2⟩
    refine ⟨?_,fun hl => ?_⟩
    · change i.request ≤ ledger.nextId
      omega
    · have hne : i.request ≠ s.ledger.nextId + 1 := by omega
      exact List.mem_cons_of_mem _ (h2 (((hlive _).mp hl).resolve_right hne))
  have hold : ∀ c b, .asyncWrite c b ∈ Event.accepted item s.connectionSeq s.connected :: s.trace →
      .asyncWrite c b ∈ s.trace := fun c b hb => (List.mem_cons.mp hb).resolve_left (by simp)
  have hnew : .accepted item s.connectionSeq true ∈
      Event.accepted item s.connectionSeq s.connected :: s.trace := by
    rw [hc]
    exact List.mem_cons_self
  refine ⟨⟨hv,?_,hg.fenced,?_,?_,?_⟩,hcov⟩
  · intro i hi
    obtain hq | hq | ⟨k,hk,hki⟩ | hb := hi
    · exact hcov i (hg.covered i (.inl hq))
    · exact hcov i (hg.covered i (.inr (.inl hq)))
    · rcases List.mem_append.mp hk with hk | hk
      · exact hcov i (hg.covered i (.inr (.inr (.inl ⟨k,hk,hki⟩))))
      · have hk := List.mem_singleton.mp hk
        have hki : some item = some i := (hitem item).symm.trans (hk ▸ hki)
        cases hki
        exact ⟨hnext.ge,fun _ => hnew⟩
    · exact hcov i (hg.covered i (.inr (.inr (.inr hb))))
  · exact fun c b hb => hg.token_lt c b (hold c b hb)
  · exact fun c b c' b' hb hb' => hg.token_unique c b c' b' (hold c b hb) (hold c' b' hb')
  · exact fun seq c b hb => List.mem_cons_of_mem _ (hg.started seq c b hb)

theorem submit_safe (s : State N) (data : List UInt8) (faults : WriteFaults)
    {handler : TrackedBuffer → Handler} (hitem : ∀ item, (handler item).item? = some item)
    (hc : s.connected = true) : s.Safe (s.submit data faults handler).1 := by
  unfold submit
  split_ifs
  · exact .refl s
  · exact s.rollback_safe data.length
  · exact s.accept_safe data handler hitem hc

omit [CommRing N] in
theorem counters_quiet (s : State N) (counters : Counters) : s.Quiet { s with counters := counters } :=
  quiet_of_set rfl

theorem submitPlain_safe (s : State N) (data : List UInt8) (faults : WriteFaults)
    (hc : s.connected = true) : s.Safe (s.submitPlain cfg data faults).1 := by
  unfold submitPlain
  split
  · exact (s.counters_quiet _).safe.trans (submit_safe _ data faults (fun _ => rfl) hc)
  · exact .refl s

theorem submitTry_safe (s : State N) (data : List UInt8) (faults : WriteFaults)
    (hc : s.connected = true) : s.Safe (s.submitTry cfg data faults).1 := by
  unfold submitTry
  split_ifs
  · exact .refl s
  · split
    · exact (s.counters_quiet _).safe.trans (submit_safe _ data faults (fun _ => rfl) hc)
    · exact .refl s

/-- The pooled attempt of a copy may have failed after it reserved its bytes. -/
theorem submitPlain_connected (s : State N) (data : List UInt8) (faults : WriteFaults) :
    (s.submitPlain cfg data faults).1.connected = s.connected := by
  unfold submitPlain submit
  split
  · split_ifs <;> rfl
  · rfl

theorem write_safe (s : State N) (kind : PlainWrite) (data : List UInt8)
    (expectedConnection : Option ℕ) (faults : WriteFaults) :
    s.Safe (s.write cfg kind data expectedConnection faults).1 :=
  write_respects (P := fun t => t.connected = true) .refl .trans (fun h => h.connected) kind faults
    (fun t f _ ht => ⟨(t.submitPlain_connected cfg data f).trans ht,t.submitPlain_safe cfg data f ht⟩)

theorem tryWrite_safe (s : State N) (kind : TryWrite) (data : List UInt8) (faults : WriteFaults) :
    s.Safe (s.tryWrite cfg kind data faults).1 :=
  tryWrite_respects .refl kind faults (fun h => s.submitTry_safe cfg data faults h.connected)

omit [CommRing N] in
theorem backpressure_quiet (s : State N) (active : Bool) :
    s.Quiet { s with backpressureActive := active } := quiet_of_set rfl

omit [CommRing N] in
theorem writing_quiet (s : State N) (writing : Bool) : s.Quiet { s with writing := writing } :=
  quiet_of_set rfl

theorem stop_safe (s : State N) : s.Safe s.stop := by
  unfold stop
  split
  · exact .refl s
  dsimp only
  have hend := s.safe_ledger (fun hv => Ledger.retires_endAll hv .explicitStop)
  have hset : s.Safe { ({ s with stopRequested := true, ledger := s.ledger.endAll .explicitStop } :
      State N).endWriteWait .cancelledWhileWaiting with stopping := true, stopSeq := s.currentSeq } :=
    hend.trans (safe_of_set rfl)
  split_ifs
  · exact hset.trans (safe_lifecycle.toCleanup.stopCleanupWith .refl _)
  · exact hset.trans (post_quiet _ rfl).safe

omit [CommRing N] in
theorem failReceive_safe (s : State N) : s.Safe s.failReceive := by
  unfold failReceive
  split
  · exact .refl s
  · exact (post_quiet s rfl).safe

theorem callerStep_safe (s : State N) (op : CallerOp) : s.Safe (s.callerStep cfg op) := by
  cases op with
  | write kind data expectedConnection faults => exact s.write_safe cfg kind data expectedConnection faults
  | tryWrite kind data faults => exact s.tryWrite_safe cfg kind data faults
  | stop => exact s.stop_safe
  | resetStats => exact s.safe_ledger (fun hv => hv.retires_reset)
  | failReceive => exact s.failReceive_safe
  | cancelWriteWaits => exact safe_of_set rfl
  | configure settings => exact safe_of_set rfl

theorem giveWay_safe (s : State N) : s.Safe (s.giveWay cfg) :=
  giveWay_respects Safe.refl Safe.trans (fun _ _ => safe_of_set rfl) (fun t op => t.callerStep_safe cfg op)

end Callers

end State
end Wirestead.Transport.TcpClient
