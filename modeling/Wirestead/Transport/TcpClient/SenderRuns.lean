import Wirestead.Transport.TcpClient.SenderSteps
import Wirestead.Transport.TcpClient.Starting

/-! # Runs of the sender

The facts that make every step of a run a sequence of moves: reservations cover the
posted writes, the counters stay within the hard limit, and at most one write of the
present connection is under way. What every move keeps then holds after every run.
-/
namespace Wirestead.Transport.TcpClient
open Diagnostics Sizes

/-- The buffer of a plain write of the run. -/
def Handler.plain? (seq : ℕ) : Handler → Option TrackedBuffer
  | .write item s _ => if s = seq then some item else none
  | _ => none

/-- The plain writes of a run whose handlers have not run. -/
def plainPosted (seq : ℕ) (posted : List Handler) : List TrackedBuffer := posted.filterMap (Handler.plain? seq)

/-- The run that a posted write was admitted in. -/
def Handler.seq? : Handler → Option ℕ
  | .write _ seq _ => some seq
  | .tryWrite _ seq _ => some seq
  | _ => none

@[simp]
theorem plainPosted_append (seq : ℕ) (l r : List Handler) :
    plainPosted seq (l ++ r) = plainPosted seq l ++ plainPosted seq r := List.filterMap_append

@[simp]
theorem plainPosted_cons (seq : ℕ) (handler : Handler) (rest : List Handler) :
    plainPosted seq (handler :: rest) = (handler.plain? seq).toList ++ plainPosted seq rest := by
  unfold plainPosted
  rw [List.filterMap_cons]
  cases handler.plain? seq <;> rfl

@[simp]
theorem plainPosted_nil (seq : ℕ) : plainPosted seq [] = [] := rfl

theorem plain?_eq_none {handler : Handler} (h : handler.item? = none) (seq : ℕ) : handler.plain? seq = none := by
  cases handler with
  | write item s c => cases h
  | _ => rfl

/-- Posts of earlier runs do not count. -/
theorem plainPosted_eq_nil {seq : ℕ} {posted : List Handler}
    (h : ∀ handler ∈ posted, ∀ s, handler.seq? = some s → s < seq) : plainPosted seq posted = [] := by
  unfold plainPosted
  rw [List.filterMap_eq_nil_iff]
  intro handler hh
  cases handler with
  | write item s c =>
    have hlt := h _ hh s rfl
    exact if_neg (by omega)
  | _ => rfl

/-- The handler will look after the queue itself. -/
def Hand.Rests : Hand → Prop
  | .empty => True
  | .queued => True
  | .finishing => False
  | .batch _ => False

namespace Sender
variable {N : Type*}

/-- The writes of the present connection. -/
def present (a : Sender N) : List Flight :=
  (writes a.outstanding).filter (fun f => f.connection = a.connectionSeq)

structure Fit (cfg : Config) (h : Hand) (a : Sender N) : Prop where
  seqs : a.lifecycleSeq = a.currentSeq
  linked : a.connected = true → a.state = .connected
  total : a.counters.total ≤ cfg.bpLimit
  reserved : totalBytes (plainPosted a.currentSeq a.posted) ≤ a.counters.inflightBytes
  posted : ∀ handler ∈ a.posted, ∀ seq, handler.seq? = some seq → seq ≤ a.currentSeq
  flights : ∀ f ∈ writes a.outstanding, f.connection ≤ a.connectionSeq
  single : a.present = [] ∨ h.Rests ∧ a.connected = true ∧ a.writing = true ∧
    ∃ f, a.present = [f] ∧ f.seq = a.currentSeq
  busy : ¬ h.Rests → a.writing = true ∧ a.connected = true

variable {cfg : Config} {h : Hand} {a : Sender N}

theorem Fit.present_of_mayWrite (hf : Fit cfg h a) (hm : h.MayWrite a.writing) : a.present = [] := by
  rcases hf.single with hp | ⟨hr,-,hw,-⟩
  · exact hp
  · cases h with
    | empty => simp [Hand.MayWrite, hw] at hm
    | queued => simp [Hand.MayWrite, hw] at hm
    | finishing => exact hr.elim
    | batch buffers => exact hr.elim

/-- In any other link state no connection is up. -/
theorem Fit.down (hf : Fit cfg h a) (hs : a.state ≠ .connected) : a.connected = false := by
  cases hc : a.connected with
  | false => rfl
  | true => exact absurd (hf.linked hc) hs

theorem Fit.present_of_down (hf : Fit cfg h a) (hc : a.connected = false) : a.present = [] := by
  rcases hf.single with hp | ⟨-,hup,-⟩
  · exact hp
  · simp [hc] at hup

/-- The write of the present connection completes: none is left. -/
theorem Fit.present_complete (hf : Fit cfg h a) {l r : List Flight} {o : List Outstanding} {seq : ℕ}
    {b : WriteBatch} (hw : writes a.outstanding = l ++ ⟨seq,a.connectionSeq,b⟩ :: r)
    (ho : writes o = l ++ r) :
    ({ a with outstanding := o } : Sender N).present = [] ∧ h.Rests ∧ a.connected = true ∧
      a.writing = true ∧ seq = a.currentSeq := by
  have hpresent : a.present = l.filter (fun f => f.connection = a.connectionSeq) ++
      ⟨seq,a.connectionSeq,b⟩ :: r.filter (fun f => f.connection = a.connectionSeq) := by
    rw [present, hw, List.filter_append, List.filter_cons_of_pos (by simp)]
  rcases hf.single with hp | ⟨hr,hc,hwr,f,hp,hseq⟩
  · rw [hp] at hpresent
    simp at hpresent
  · rw [hp] at hpresent
    obtain ⟨hl,hf',hr'⟩ : l.filter (fun f => f.connection = a.connectionSeq) = [] ∧
        f = ⟨seq,a.connectionSeq,b⟩ ∧ r.filter (fun f => f.connection = a.connectionSeq) = [] := by
      cases hl : l.filter (fun f => f.connection = a.connectionSeq) with
      | nil =>
        rw [hl, List.nil_append] at hpresent
        injection hpresent with h1 h2
        exact ⟨rfl,h1,h2.symm⟩
      | cons x xs =>
        rw [hl] at hpresent
        simp at hpresent
    refine ⟨?_,hr,hc,hwr,?_⟩
    · change (writes o).filter (fun f => f.connection = a.connectionSeq) = []
      rw [ho, List.filter_append, hl, hr']
      rfl
    · rw [hf'] at hseq
      exact hseq

/-- A completion takes one write away. -/
theorem writes_sublist {outstanding o : List Outstanding} {l r : List Flight} {f : Flight}
    (hw : writes outstanding = l ++ f :: r) (ho : writes o = l ++ r) : (writes o).Sublist (writes outstanding) := by
  rw [hw, ho]
  exact (List.Sublist.refl l).append (List.sublist_cons_self f r)

theorem Fit.flights_complete (hf : Fit cfg h a) {l r : List Flight} {f : Flight} {o : List Outstanding}
    (hw : writes a.outstanding = l ++ f :: r) (ho : writes o = l ++ r) :
    ∀ f ∈ writes o, f.connection ≤ a.connectionSeq :=
  fun g hg => hf.flights g ((writes_sublist hw ho).subset hg)

variable [CommRing N]

/-- With its connection a write of the present one becomes one of the past. -/
theorem Fit.disconnect (hf : Fit cfg h a) : Fit cfg .empty a.disconnect := by
  unfold Sender.disconnect
  cases hc : a.connected with
  | false =>
    have hp := hf.present_of_down hc
    rw [if_neg (by simp)]
    exact ⟨hf.seqs,hf.linked,hf.total,hf.reserved,hf.posted,hf.flights,.inl hp,fun hn => absurd trivial hn⟩
  | true =>
    rw [if_pos rfl]
    refine ⟨hf.seqs,fun hn => by simp at hn,hf.total,hf.reserved,hf.posted,fun f hm => ?_,.inl ?_,
      fun hn => absurd trivial hn⟩
    · exact (hf.flights f hm).trans (Nat.le_succ _)
    · refine List.filter_eq_nil_iff.mpr fun f hm => ?_
      have hle := hf.flights f hm
      simp only [decide_eq_true_eq]
      omega

omit [CommRing N] in
theorem Fit.clear (hf : Fit cfg .empty a) (hc : a.connected = false) : Fit cfg .empty a.clear := by
  refine ⟨hf.seqs,hf.linked,?_,hf.reserved,hf.posted,hf.flights,.inl (hf.present_of_down hc),
    fun hn => absurd trivial hn⟩
  have htotal := hf.total
  unfold Counters.total at htotal ⊢
  dsimp only [Sender.clear]
  omega

theorem Fit.lose (hf : Fit cfg h a) : Fit cfg .empty a.lose := by
  have hd := hf.disconnect.clear a.disconnect_connected
  exact ⟨hd.seqs,hd.linked,hd.total,hd.reserved,hd.posted,hd.flights,hd.single,hd.busy⟩

omit [CommRing N] in
theorem Fit.relieve (hf : Fit cfg h a) : Fit cfg h (a.relieve cfg) := by
  have htotal := hf.total
  have hlimit := cfg.bpLimit_lt
  unfold Counters.total at htotal
  unfold Sender.relieve
  split
  · refine ⟨hf.seqs,hf.linked,?_,hf.reserved,hf.posted,hf.flights,hf.single,hf.busy⟩
    unfold Counters.total
    dsimp only
    rw [add_eq (by omega)]
    omega
  · exact hf

omit [CommRing N] in
/-- What has been posted belongs to no later run. -/
theorem Fit.posted_before (hf : Fit cfg h a) :
    ∀ handler ∈ a.posted, ∀ seq, handler.seq? = some seq → seq < a.lifecycleSeq + 1 := by
  intro handler hh seq hseq
  have hle := hf.posted handler hh seq hseq
  have hseqs := hf.seqs
  omega

/-- A new run has no posts and no writes yet. -/
theorem Fit.restart (hf : Fit cfg .empty a) (hs : a.state ≠ .connected) : Fit cfg .empty a.restart := by
  have hc := hf.down hs
  have hold := hf.posted_before
  unfold Sender.restart Sender.disconnect
  dsimp only
  rw [if_neg (by simp [hc])]
  refine ⟨rfl,fun hn => by simp [hc] at hn,by simp [Counters.total],?_,?_,hf.flights,
    .inl (hf.present_of_down hc),fun hn => absurd trivial hn⟩
  · dsimp only
    rw [plainPosted_append, plainPosted_eq_nil hold]
    exact Nat.le_refl 0
  · intro handler hh seq hseq
    rcases List.mem_append.mp hh with hh | hh
    · exact (hold handler hh seq hseq).le
    · rw [List.mem_singleton.mp hh] at hseq
      cases hseq

omit [CommRing N] in
/-- What the first handler has reserved is there, and the rest is covered without it. -/
theorem Fit.reserved_cons (hf : Fit cfg h a) {handler : Handler} {rest : List Handler}
    (hp : a.posted = handler :: rest) :
    totalBytes (handler.plain? a.currentSeq).toList + totalBytes (plainPosted a.currentSeq rest) ≤
      a.counters.inflightBytes := by
  have hr := hf.reserved
  rw [hp, plainPosted_cons, totalBytes_append] at hr
  exact hr

omit [CommRing N] in
/-- The first handler is taken, with its reservation or without. -/
theorem Fit.pop (hf : Fit cfg h a) {handler : Handler} {rest : List Handler}
    (hp : a.posted = handler :: rest) (h' : Hand) (hr' : h'.Rests)
    {counters : Counters} (htotal : counters.total ≤ a.counters.total)
    (hinflight : a.counters.inflightBytes ≤
      counters.inflightBytes + totalBytes (handler.plain? a.currentSeq).toList)
    {tx pending : List TrackedBuffer} :
    Fit cfg h' { a with posted := rest, counters := counters, tx := tx, pending := pending } := by
  have hreserved := hf.reserved_cons hp
  refine ⟨hf.seqs,hf.linked,htotal.trans hf.total,?_,fun k hk => ?_,hf.flights,?_,fun hn => absurd hr' hn⟩
  · change totalBytes (plainPosted a.currentSeq rest) ≤ counters.inflightBytes
    omega
  · refine hf.posted k ?_
    rw [hp]
    exact List.mem_cons_of_mem _ hk
  · exact hf.single.imp id (fun hs => ⟨hr',hs.2⟩)

omit [CommRing N] in
theorem plain?_self (item : TrackedBuffer) (seq connection : ℕ) :
    (Handler.write item seq connection).plain? seq = some item := if_pos rfl

omit [CommRing N] in
/-- A reservation moves from one counter to another. -/
theorem Fit.commit (hf : Fit cfg h a) {item : TrackedBuffer} {connection : ℕ} {rest : List Handler}
    (hp : a.posted = .write item a.currentSeq connection :: rest) (counter : Counter) :
    (commitReservedLimitBytes a.counters counter item.size).total ≤ a.counters.total ∧
    a.counters.inflightBytes ≤ (commitReservedLimitBytes a.counters counter item.size).inflightBytes +
      totalBytes ((Handler.write item a.currentSeq connection).plain? a.currentSeq).toList := by
  have htotal := hf.total
  have hlimit := cfg.bpLimit_lt
  have hr := hf.reserved_cons hp
  rw [plain?_self] at hr ⊢
  simp only [Option.toList_some, totalBytes_cons, totalBytes_nil] at hr ⊢
  unfold Counters.total at htotal ⊢
  cases counter with
  | queue =>
    simp only [commitReservedLimitBytes, release_eq]
    rw [add_eq (by omega)]
    omega
  | pending =>
    simp only [commitReservedLimitBytes, release_eq]
    rw [add_eq (by omega)]
    omega

/-- Admission adds one post of the present run. -/
theorem Fit.accept (hf : Fit cfg h a) {data : List UInt8} {counters : Counters}
    {handler : TrackedBuffer → Handler} (hseq : ∀ item, (handler item).seq? = some a.currentSeq)
    (htotal : counters.total ≤ cfg.bpLimit)
    (hinflight : a.counters.inflightBytes +
      totalBytes ((handler ⟨data,a.ledger.nextId + 1⟩).plain? a.currentSeq).toList ≤ counters.inflightBytes) :
    Fit cfg h (({ a with counters := counters } : Sender N).accept data handler) := by
  have hreserved := hf.reserved
  refine ⟨hf.seqs,hf.linked,htotal,?_,fun k hk s hs => ?_,hf.flights,hf.single,hf.busy⟩
  · change totalBytes (plainPosted a.currentSeq (a.posted ++ [handler ⟨data,a.ledger.nextId + 1⟩])) ≤
      counters.inflightBytes
    rw [plainPosted_append, plainPosted_cons, plainPosted_nil, List.append_nil, totalBytes_append]
    omega
  · rcases List.mem_append.mp hk with hk | hk
    · exact hf.posted k hk s hs
    · rw [List.mem_singleton.mp hk, hseq] at hs
      cases hs
      exact le_rfl

variable {allow : Flaw → Prop} {h' : Hand} {a' : Sender N}

omit [CommRing N] in
/-- Operations that are no writes come and go. -/
theorem Fit.operate (hf : Fit cfg h a) {o : List Outstanding} (ho : writes o = writes a.outstanding) :
    Fit cfg h { a with outstanding := o } := by
  refine ⟨hf.seqs,hf.linked,hf.total,hf.reserved,hf.posted,?_,?_,hf.busy⟩
  · dsimp only
    rw [ho]
    exact hf.flights
  · have hpresent : ({ a with outstanding := o } : Sender N).present = a.present := by
      unfold present
      dsimp only
      rw [ho]
    rw [hpresent]
    exact hf.single

omit [CommRing N] in
theorem Fit.post (hf : Fit cfg h a) {handler : Handler} (hi : handler.item? = none) (hs : handler.start? = none) :
    Fit cfg h { a with posted := a.posted ++ [handler] } := by
  refine ⟨hf.seqs,hf.linked,hf.total,?_,fun k hk s hseq => ?_,hf.flights,hf.single,hf.busy⟩
  · dsimp only
    rw [plainPosted_append, plainPosted_cons, plain?_eq_none hi]
    simpa using hf.reserved
  · rcases List.mem_append.mp hk with hk | hk
    · exact hf.posted k hk s hseq
    · rw [List.mem_singleton.mp hk] at hseq
      cases handler with
      | write item s c => cases hi
      | tryWrite item s c => cases hi
      | start s => cases hs
      | _ => cases hseq

omit [CommRing N] in
/-- The batch in hand becomes the one write of the connection. -/
theorem Fit.write {buffers : List TrackedBuffer} (hf : Fit cfg (.batch buffers) a) {o : List Outstanding}
    (ho : writes o = writes a.outstanding ++
      [⟨a.currentSeq,a.connectionSeq,⟨a.nextToken,buffers,totalBytes buffers⟩⟩]) :
    Fit cfg .empty { a.record buffers (totalBytes buffers) with outstanding := o } := by
  have hpast : a.present = [] := hf.single.elim id (fun hs => hs.1.elim)
  obtain ⟨hw,hc⟩ := hf.busy id
  refine ⟨hf.seqs,hf.linked,hf.total,hf.reserved,hf.posted,fun f hm => ?_,
    .inr ⟨trivial,hc,hw,⟨a.currentSeq,a.connectionSeq,⟨a.nextToken,buffers,totalBytes buffers⟩⟩,?_,rfl⟩,
    fun hn => absurd trivial hn⟩
  · rw [show writes _ = _ from ho] at hm
    rcases List.mem_append.mp hm with hm | hm
    · exact hf.flights f hm
    · rw [List.mem_singleton.mp hm]
      exact le_rfl
  · change (writes o).filter (fun f => f.connection = a.connectionSeq) = _
    rw [ho, List.filter_append, show (writes a.outstanding).filter _ = [] from hpast]
    simp

omit [CommRing N] in
/-- A post that is refused gives its reservation back. -/
theorem Fit.unreserve (hf : Fit cfg .empty a) {item : TrackedBuffer} {rest : List Handler} {connection : ℕ}
    (hp : a.posted = .write item a.currentSeq connection :: rest) :
    Fit cfg .empty { a with posted := rest, counters := releaseReservedLimitBytes a.counters item.size } := by
  have hr := hf.reserved_cons hp
  refine hf.pop hp .empty trivial ?_ ?_
  · unfold Counters.total releaseReservedLimitBytes
    rw [release_eq]
    dsimp only
    omega
  · rw [plain?_self] at hr ⊢
    simp only [releaseReservedLimitBytes, release_eq, Option.toList_some, totalBytes_cons, totalBytes_nil] at hr ⊢
    omega

omit [CommRing N] in
theorem Fit.unreserveTry (hf : Fit cfg .empty a) {item : TrackedBuffer} {rest : List Handler}
    (hp : a.posted = .tryWrite item a.currentSeq a.connectionSeq :: rest) :
    Fit cfg .empty { a with posted := rest, counters := releaseReservedWriteBytes a.counters item.size } := by
  refine hf.pop hp .empty trivial ?_ ?_
  · unfold Counters.total releaseReservedWriteBytes
    rw [release_eq]
    dsimp only
    omega
  · exact le_rfl

/-- The write of the connection completes, and its handler goes on writing. -/
theorem Fit.complete (hf : Fit cfg .empty a) {l r : List Flight} {seq : ℕ} {b : WriteBatch} {o : List Outstanding}
    (hw : writes a.outstanding = l ++ ⟨seq,a.connectionSeq,b⟩ :: r) (ho : writes o = l ++ r) (n : ℕ) :
    Fit cfg .finishing (Sender.relieve { a.settle b n with
      outstanding := o, activeWrite := none, counters := releaseReservedWriteBytes a.counters b.bytes } cfg) := by
  have htotal := hf.total
  obtain ⟨hpresent,-,hc,hwr,-⟩ := hf.present_complete hw ho
  refine Fit.relieve ⟨hf.seqs,hf.linked,?_,hf.reserved,hf.posted,hf.flights_complete hw ho,.inl hpresent,
    fun _ => ⟨hwr,hc⟩⟩
  unfold Counters.total releaseReservedWriteBytes at *
  dsimp only
  rw [release_eq]
  omega

/-- A write of an earlier connection completes. -/
theorem Fit.completeStale (hf : Fit cfg .empty a) {l r : List Flight} {seq connection : ℕ} {b : WriteBatch}
    {o : List Outstanding} (hw : writes a.outstanding = l ++ ⟨seq,connection,b⟩ :: r)
    (hc : connection ≠ a.connectionSeq) (ho : writes o = l ++ r) (n : ℕ) (active : Option WriteBatch) :
    Fit cfg .empty { a.settle b n with outstanding := o, activeWrite := active } := by
  refine ⟨hf.seqs,hf.linked,hf.total,hf.reserved,hf.posted,hf.flights_complete hw ho,?_,hf.busy⟩
  have hpresent : ({ a with outstanding := o } : Sender N).present = a.present := by
    unfold present
    dsimp only
    rw [ho, hw, List.filter_append, List.filter_append, List.filter_cons_of_neg (by simpa using hc)]
  have hsingle := hf.single
  rw [← hpresent] at hsingle
  exact hsingle

theorem Fit.move (hf : Fit cfg h a) (hm : Move cfg allow (h,a) (h',a')) : Fit cfg h' a' := by
  have htotal := hf.total
  cases hm with
  | turn => exact ⟨hf.seqs,hf.linked,hf.total,hf.reserved,hf.posted,hf.flights,hf.single,hf.busy⟩
  | operate _ o ho => exact hf.operate ho
  | pop _ handler rest hp hi =>
    exact hf.pop hp .empty trivial le_rfl (by rw [plain?_eq_none hi]; exact Nat.le_refl _)
  | enter _ next hc =>
    exact ⟨hf.seqs,fun hn => absurd (hc.symm.trans hn) (by simp),hf.total,hf.reserved,hf.posted,hf.flights,
      hf.single,hf.busy⟩
  | connect _ hs =>
    exact ⟨hf.seqs,fun _ => rfl,hf.total,hf.reserved,hf.posted,hf.flights,
      hf.single.imp id (fun hs => ⟨hs.1,rfl,hs.2.2⟩),fun hn => absurd trivial hn⟩
  | lose => exact hf.lose
  | strand => exact hf.disconnect
  | purge _ hc => exact hf.clear hc
  | rest _ hc =>
    exact ⟨hf.seqs,hf.linked,hf.total,hf.reserved,hf.posted,hf.flights,.inl (hf.present_of_down hc),
      fun hn => absurd trivial hn⟩
  | restart _ hs => exact hf.restart hs
  | post _ _ handler hi hs => exact hf.post hi hs
  | plain _ _ data ha hl =>
    refine hf.accept (fun _ => rfl) ?_ ?_
    · unfold Counters.total at hl ⊢
      dsimp only
      omega
    · rw [plain?_self]
      simp [TrackedBuffer.size]
  | tryPlain _ _ data ha hb hl =>
    refine hf.accept (fun _ => rfl) ?_ le_rfl
    unfold Counters.total at hl ⊢
    dsimp only
    omega
  | leak _ _ counters ledger _ _ _ hi ht =>
    exact ⟨hf.seqs,hf.linked,ht,hf.reserved.trans hi,hf.posted,hf.flights,hf.single,hf.busy⟩
  | relabel => exact ⟨hf.seqs,hf.linked,hf.total,hf.reserved,hf.posted,hf.flights,hf.single,hf.busy⟩
  | stop => exact ⟨hf.seqs,hf.linked,hf.total,hf.reserved,hf.posted,hf.flights,hf.single,hf.busy⟩
  | queue => exact ⟨hf.seqs,hf.linked,hf.total,hf.reserved,hf.posted,hf.flights,hf.single,hf.busy⟩
  | written => exact ⟨hf.seqs,hf.linked,hf.total,hf.reserved,hf.posted,hf.flights,hf.single,hf.busy⟩
  | take _ _ buffers rest hmay hopen hc htx hne =>
    exact ⟨hf.seqs,hf.linked,hf.total,hf.reserved,hf.posted,hf.flights,.inl (hf.present_of_mayWrite hmay),
      fun _ => ⟨rfl,hc⟩⟩
  | putBack =>
    refine ⟨hf.seqs,hf.linked,hf.total,hf.reserved,hf.posted,hf.flights,?_,fun hn => absurd trivial hn⟩
    exact hf.single.imp id (fun hs => hs.1.elim)
  | write _ buffers o hs hb ho => exact hf.write ho
  | writeThrows _ buffers hs hb =>
    have hrecord : Fit cfg (.batch buffers) (a.record buffers (totalBytes buffers)) :=
      ⟨hf.seqs,hf.linked,hf.total,hf.reserved,hf.posted,hf.flights,hf.single,hf.busy⟩
    exact hrecord.lose
  | idle _ _ hmay =>
    exact ⟨hf.seqs,hf.linked,hf.total,hf.reserved,hf.posted,hf.flights,.inl (hf.present_of_mayWrite hmay),
      fun hn => absurd trivial hn⟩
  | halt _ _ hmay hs =>
    refine ⟨hf.seqs,hf.linked,?_,hf.reserved,hf.posted,hf.flights,.inl (hf.present_of_mayWrite hmay),
      fun hn => absurd trivial hn⟩
    unfold Counters.total at htotal ⊢
    dsimp only
    omega
  | on => exact ⟨hf.seqs,hf.linked,hf.total,hf.reserved,hf.posted,hf.flights,hf.single,hf.busy⟩
  | relieve => exact hf.relieve
  | route _ item rest hp ho hb => exact hf.pop hp .queued trivial (hf.commit hp .queue).1 (hf.commit hp .queue).2
  | park _ item rest hp ho hb =>
    exact hf.pop hp .empty trivial (hf.commit hp .pending).1 (hf.commit hp .pending).2
  | drop _ handler rest item seq connection hp hd =>
    refine hf.pop hp .empty trivial le_rfl (Nat.le_add_right _ _)
  | unreserve _ item rest connection hp hc => exact hf.unreserve hp
  | routeTry _ item rest hp ho hpending => exact hf.pop hp .queued trivial le_rfl le_rfl
  | unreserveTry _ item rest hp ho => exact hf.unreserveTry hp
  | complete _ l r o seq b n hw ho => exact hf.complete hw ho n
  | completeStale _ l r o seq connection b n hw hc ho => exact hf.completeStale hw hc ho n _
  | fail _ l r o seq b n hw ho =>
    obtain ⟨hpresent,-⟩ := hf.present_complete hw ho
    have hsettled : Fit cfg .empty ({ a.settle b n with outstanding := o } : Sender N) :=
      ⟨hf.seqs,hf.linked,hf.total,hf.reserved,hf.posted,hf.flights_complete hw ho,.inl hpresent,hf.busy⟩
    exact hsettled.lose
  | giveUp =>
    refine ⟨hf.seqs,hf.linked,hf.total,hf.reserved,hf.posted,hf.flights,?_,fun hn => absurd trivial hn⟩
    exact hf.single.imp id (fun hs => hs.1.elim)

end Sender

section Starts

@[simp]
theorem starts_append (l r : List Handler) : starts (l ++ r) = starts l ++ starts r := List.filterMap_append

@[simp]
theorem starts_cons (handler : Handler) (rest : List Handler) :
    starts (handler :: rest) = handler.start?.toList ++ starts rest := by
  unfold starts
  rw [List.filterMap_cons]
  cases handler.start? <;> rfl

variable {N : Type*} [CommRing N] {cfg : Config} {allow : Flaw → Prop} {h h' : Hand} {a a' : Sender N}

/-- Within a run no start handler is posted. -/
structure Queued (k : ℕ) (waiting : List ℕ) (a : Sender N) : Prop where
  seqs : a.lifecycleSeq = a.currentSeq
  le : k ≤ a.currentSeq
  suffix : a.currentSeq = k → starts a.posted <:+ waiting

omit [CommRing N] in
theorem Queued.congr {k : ℕ} {waiting : List ℕ} {b : Sender N} (hq : Queued k waiting a)
    (hl : b.lifecycleSeq = a.lifecycleSeq) (hc : b.currentSeq = a.currentSeq)
    (hp : starts b.posted <:+ starts a.posted) : Queued k waiting b := by
  refine ⟨?_,?_,fun hk => ?_⟩
  · rw [hl, hc]
    exact hq.seqs
  · rw [hc]
    exact hq.le
  · exact hp.trans (hq.suffix (hc.symm.trans hk))

theorem Queued.lose {k : ℕ} {waiting : List ℕ} (hq : Queued k waiting a) : Queued k waiting a.lose := by
  refine hq.congr a.lose_lifecycleSeq a.lose_currentSeq ?_
  rw [a.lose_posted]

omit [CommRing N] in
theorem Queued.relieve {k : ℕ} {waiting : List ℕ} (hq : Queued k waiting a) : Queued k waiting (a.relieve cfg) := by
  obtain ⟨hl,hc,hp⟩ := a.relieve_frame cfg
  refine hq.congr hl hc ?_
  rw [hp]

theorem Queued.move {k : ℕ} {waiting : List ℕ} (hm : Move cfg allow (h,a) (h',a'))
    (hq : Queued k waiting a) : Queued k waiting a' := by
  have hpop : ∀ {handler : Handler} {rest : List Handler}, a.posted = handler :: rest →
      starts rest <:+ starts a.posted := by
    intro handler rest hp
    rw [hp, starts_cons]
    exact List.suffix_append _ _
  have hpost : ∀ {handler : Handler}, handler.start? = none →
      starts (a.posted ++ [handler]) <:+ starts a.posted := by
    intro handler hs
    rw [starts_append, starts_cons, hs, show starts [] = [] from rfl]
    simp
  cases hm with
  | pop _ handler rest hp => exact hq.congr rfl rfl (hpop hp)
  | lose => exact hq.lose
  | strand =>
    refine hq.congr a.disconnect_lifecycleSeq a.disconnect_currentSeq ?_
    rw [a.disconnect_posted]
  | restart =>
    have hseqs := hq.seqs
    have hle := hq.le
    refine ⟨by simp [Sender.restart],?_,fun hk => ?_⟩
    · simp only [Sender.restart, Sender.disconnect_currentSeq]
      omega
    · simp only [Sender.restart, Sender.disconnect_currentSeq] at hk
      omega
  | post _ _ handler hi hs => exact hq.congr rfl rfl (hpost hs)
  | plain => exact hq.congr rfl rfl (hpost rfl)
  | tryPlain => exact hq.congr rfl rfl (hpost rfl)
  | writeThrows _ buffers =>
    have hrecord : Queued k waiting (a.record buffers (totalBytes buffers)) := ⟨hq.seqs,hq.le,hq.suffix⟩
    exact hrecord.lose
  | relieve => exact hq.relieve
  | route _ item rest hp => exact hq.congr rfl rfl (hpop hp)
  | park _ item rest hp => exact hq.congr rfl rfl (hpop hp)
  | drop _ handler rest item seq connection hp => exact hq.congr rfl rfl (hpop hp)
  | unreserve _ item rest connection hp => exact hq.congr rfl rfl (hpop hp)
  | routeTry _ item rest hp => exact hq.congr rfl rfl (hpop hp)
  | unreserveTry _ item rest hp => exact hq.congr rfl rfl (hpop hp)
  | complete => exact Queued.relieve ⟨hq.seqs,hq.le,hq.suffix⟩
  | fail => exact Queued.lose ⟨hq.seqs,hq.le,hq.suffix⟩
  | _ => exact hq.congr rfl rfl (List.suffix_refl _)

end Starts

namespace State
variable {N : Type*} [CommRing N] {cfg : Config} {allow : Flaw → Prop} {s t : State N}

/-- Between two steps of a run. -/
structure Begun (cfg : Config) (allow : Flaw → Prop) (s : State N) : Prop where
  fit : Sender.Fit cfg .empty s.sender
  dormant : s.currentSeq = 0 → Dormant s.sender
  script : allow .leak ∨ s.script.faultless = true
  within : Within s.currentSeq s.sender
  sorted : (starts s.posted).Pairwise (· < ·)
  last : ∀ k, (starts s.posted).getLast? = some k → k = s.currentSeq
  blank : starts s.posted ≠ [] → s.sender.Blank

theorem begun_init (settings : Settings) : Begun cfg allow (init settings : State N) where
  fit := ⟨rfl,fun h => by simp [init, sender] at h,Nat.zero_le _,Nat.le_refl 0,fun _ hm => (by cases hm),
    fun _ hm => (by cases hm),.inl rfl,fun hn => absurd trivial hn⟩
  dormant _ := ⟨rfl,rfl,rfl,rfl⟩
  script := .inr rfl
  within := ⟨rfl,fun _ hm => (by cases hm)⟩
  sorted := .nil
  last _ hk := by cases hk
  blank hn := absurd rfl hn

namespace Begun

omit [CommRing N] in
theorem sound (hb : Begun cfg allow s) : s.Sound cfg where
  idle h0 := ⟨(hb.dormant h0).posted,(hb.dormant h0).outstanding,(hb.dormant h0).connected⟩
  waits {seq rest} hp := by
    refine (hb.blank ?_).connected
    rw [hp, starts_cons]
    simp [Handler.start?]
  fits {item connection rest} hp := by
    have hr := hb.fit.reserved_cons hp
    have ht := hb.fit.total
    unfold Counters.total at ht
    rw [show s.sender.currentSeq = s.currentSeq from rfl, Sender.plain?_self] at hr
    simp only [Option.toList_some, totalBytes_cons, totalBytes_nil, sender] at hr ht
    omega
  flight {f} hf hc := by
    have hmem : f ∈ s.sender.present := List.mem_filter.mpr ⟨hf,decide_eq_true hc⟩
    rcases hb.fit.single with hp | ⟨-,-,hw,g,hp,hseq⟩
    · rw [hp] at hmem
      cases hmem
    · rw [hp] at hmem
      rw [List.mem_singleton.mp hmem]
      exact ⟨hw,hseq⟩

/-- What is left of the waiting start handlers. -/
theorem of_reaches (hfit : Sender.Fit cfg .empty s.sender) (hsorted : (starts s.posted).Pairwise (· < ·))
    (hlast : ∀ k, (starts s.posted).getLast? = some k → k = s.currentSeq)
    (hr : Reaches cfg allow .empty s .empty t) (hwithin : Within s.currentSeq t.sender)
    (hblank : starts t.posted ≠ [] → starts s.posted ≠ [] → t.sender.Blank) : Begun cfg allow t := by
  have hkeeps : Queued s.currentSeq (starts s.posted) t.sender :=
    TcpClient.Moves.keeps (J := fun _ a => Queued s.currentSeq (starts s.posted) a) Queued.move hr.moves
      ⟨hfit.seqs,le_rfl,fun _ => List.suffix_refl _⟩
  obtain ⟨pre,hpre⟩ : starts t.posted <:+ starts s.posted := hkeeps.suffix hr.currentSeq
  refine ⟨TcpClient.Moves.keeps (J := Sender.Fit cfg) (fun hm hf => hf.move hm) hr.moves hfit,
    fun h0 => absurd h0 hr.ready.started,hr.ready.faultless,?_,?_,fun k hk => ?_,fun hne => hblank hne fun hs => ?_⟩
  · rw [hr.currentSeq]
    exact hwithin
  · exact hsorted.sublist (hpre ▸ List.sublist_append_right _ _)
  · rw [hr.currentSeq]
    refine hlast k ?_
    rw [← hpre, List.getLast?_append, hk]
    rfl
  · rw [hs] at hpre
    exact hne (List.append_eq_nil_iff.mp hpre).2

theorem caller (hb : Begun cfg allow s) (h0 : s.currentSeq ≠ 0) {op : CallerOp}
    (hshow : ∀ flaw, s.Shows (.caller op) flaw → allow flaw) : Begun cfg allow (s.callerStep cfg op) :=
  of_reaches hb.fit hb.sorted hb.last (step_reaches ⟨h0,hb.script⟩ hb.sound hshow (by simp))
    (bounded_framed.callerStep s op hb.within)
    (fun _ hs => (waits_framed.callerStep s op (hb.blank hs)).blank)

/-- The start handler of the present run is the last one that waits. -/
theorem start (hb : Begun cfg allow s) (h0 : s.currentSeq ≠ 0) {script : Script} {seq : ℕ} {rest : List Handler}
    (hp : s.posted = .start seq :: rest) (hscript : allow .leak ∨ script.faultless = true) :
    Begun cfg allow (State.startOn cfg { s with posted := rest, script := script } seq) := by
  have hstarts : starts s.posted = seq :: starts rest := by
    rw [hp, starts_cons]
    rfl
  have hne : starts s.posted ≠ [] := by
    rw [hstarts]
    exact List.cons_ne_nil _ _
  have hsorted := hb.sorted
  rw [hstarts, List.pairwise_cons] at hsorted
  have hlast : ∀ k, (starts rest).getLast? = some k → k = s.currentSeq := by
    intro k hk
    refine hb.last k ?_
    rw [hstarts, List.getLast?_cons, hk]
    rfl
  have hle : seq ≤ s.currentSeq := by
    cases hr : (starts rest).getLast? with
    | none =>
      refine (hb.last seq ?_).le
      rw [hstarts, List.getLast?_cons, hr]
      rfl
    | some k =>
      rw [← hlast k hr]
      exact (hsorted.1 k (List.mem_of_getLast? hr)).le
  have hfit : Sender.Fit cfg .empty (State.sender { s with posted := rest, script := script }) := by
    have hpop : Sender.Fit cfg .empty { s.sender with posted := rest } :=
      hb.fit.pop hp .empty trivial le_rfl (Nat.le_add_right _ _)
    exact ⟨hpop.seqs,hpop.linked,hpop.total,hpop.reserved,hpop.posted,hpop.flights,hpop.single,hpop.busy⟩
  have hblank := hb.blank hne
  have hreach : Reaches cfg allow .empty { s with posted := rest, script := script } .empty
      (State.startOn cfg { s with posted := rest, script := script } seq) :=
    runs_lifecycle.startOn giveWay_runs _ trivial (.inr hblank.connected) ⟨h0,hscript⟩
  refine of_reaches hfit hsorted.2 hlast hreach ?_ (fun _ hwait => ?_)
  · exact bounded_lifecycle.startOn bounded_framed.giveWay _ hle (.inl trivial) (hb.within.congr rfl rfl)
  · obtain ⟨k,hk⟩ := List.getLast?_isSome.mpr hwait |> Option.isSome_iff_exists.mp
    have hlt := hsorted.1 k (List.mem_of_getLast? hk)
    rw [hlast k hk] at hlt
    have hwaits : State.Waits { s with posted := rest, script := script }
        (State.startOn cfg { s with posted := rest, script := script } seq) := startOn_waits _ hlt.ne
    exact (hwaits ⟨hblank.connected,hblank.outstanding⟩).blank

theorem handler (hb : Begun cfg allow s) (h0 : s.currentSeq ≠ 0) {script : Script}
    (hshow : ∀ flaw, s.Shows (.handler script) flaw → allow flaw) :
    Begun cfg allow (s.step cfg (.handler script)) := by
  have hreach := step_reaches ⟨h0,hb.script⟩ hb.sound hshow (by simp)
  revert hreach
  unfold step
  dsimp only
  split
  · exact fun _ => hb
  rename_i handler rest hp
  intro hreach
  cases hs : handler.start? with
  | some seq =>
    have hseq : handler = .start seq := by
      cases handler with
      | start k =>
        cases hs
        rfl
      | _ => cases hs
    subst hseq
    refine hb.start h0 hp ?_
    by_cases hf : script.faultless = true
    · exact .inr hf
    · exact .inl (hshow .leak (by simpa [Shows, StepOp.faultless] using hf))
  | none =>
    refine of_reaches hb.fit hb.sorted hb.last hreach ?_ (fun _ hwait => ?_)
    · exact runHandler_bounded _ (fun seq heq => by rw [heq] at hs; cases hs) (hb.within.congr rfl rfl)
    · have hne : handler ≠ .start s.currentSeq := by
        rintro rfl
        cases hs
      have hwaits : State.Waits { s with posted := rest, script := script }
          (State.runHandler cfg { s with posted := rest, script := script } handler) := runHandler_waits _ hne
      exact (hwaits ⟨(hb.blank hwait).connected,(hb.blank hwait).outstanding⟩).blank

theorem complete (hb : Begun cfg allow s) (h0 : s.currentSeq ≠ 0) {index : ℕ} {r : Completion} {script : Script}
    (hshow : ∀ flaw, s.Shows (.complete index r script) flaw → allow flaw) :
    Begun cfg allow (s.step cfg (.complete index r script)) := by
  have hreach := step_reaches ⟨h0,hb.script⟩ hb.sound hshow (by simp)
  revert hreach
  unfold step
  dsimp only
  split
  · exact fun _ => hb
  rename_i o ho
  intro hreach
  have hmem := List.mem_of_getElem? ho
  have hsub : ∀ o' ∈ s.outstanding.eraseIdx index, o' ∈ s.outstanding :=
    fun o' h' => (List.eraseIdx_sublist _ _).subset h'
  refine of_reaches hb.fit hb.sorted hb.last hreach ?_ (fun _ hwait => ?_)
  · have hwithin : Within s.currentSeq (State.sender
        { s with outstanding := s.outstanding.eraseIdx index, script := script }) :=
      ⟨rfl,fun o' h' => hb.within.outstanding o' (hsub o' h')⟩
    exact bounded_lifecycle.ioCompletion _ (runCompletion_bounded _ r (hb.within.outstanding o hmem) hwithin)
  · have hblank := hb.blank hwait
    have hblank' : Sender.Blank (State.sender
        { s with outstanding := s.outstanding.eraseIdx index, script := script }) :=
      ⟨hblank.connected,fun o' h' => hblank.outstanding o' (hsub o' h')⟩
    exact (completed_waits { s with outstanding := s.outstanding.eraseIdx index, script := script } r
      (hblank.outstanding o hmem) hblank').blank

omit [CommRing N] in
theorem starts_le (hb : Begun cfg allow s) {k : ℕ} (hk : k ∈ starts s.posted) : k ≤ s.currentSeq := by
  have hsorted := hb.sorted
  have hlast := hb.last
  rcases List.eq_nil_or_concat (starts s.posted) with hnil | ⟨l,m,hl⟩
  · rw [hnil] at hk
    cases hk
  · rw [hl, List.concat_eq_append] at hk hsorted hlast
    rw [List.pairwise_append] at hsorted
    have hm := hlast m List.getLast?_concat
    rcases List.mem_append.mp hk with hk | hk
    · rw [← hm]
      exact (hsorted.2.2 k hk m (List.mem_singleton_self m)).le
    · rw [List.mem_singleton.mp hk]
      exact hm.le

theorem dormantStep (hb : Begun cfg allow s) (hc : Calm cfg allow s t) (hd : Dormant t.sender) :
    Begun cfg allow t := by
  have hp : t.posted = [] := hd.posted
  have ho : t.outstanding = [] := hd.outstanding
  refine ⟨TcpClient.Moves.keeps (J := Sender.Fit cfg) (fun hm hf => hf.move hm) hc.moves hb.fit,fun _ => hd,?_,
    ⟨rfl,fun o hm => ?_⟩,?_,?_,?_⟩
  · rw [show t.script = s.script from hc.script]
    exact hb.script
  · rw [show t.sender.outstanding = [] from ho] at hm
    cases hm
  · rw [hp]
    exact .nil
  · rw [hp]
    exact fun _ hk => nomatch hk
  · rw [hp]
    exact fun hn => absurd rfl hn

/-- A new run is blank. -/
theorem restart (hb : Begun cfg allow s) (hs : s.state ≠ .connected) (ht : t.sender = s.sender.restart) :
    Begun cfg allow t := by
  have hc : s.sender.connected = false := by
    cases hc : s.sender.connected with
    | false => rfl
    | true => exact absurd (hb.fit.linked hc) hs
  have hseqs : s.lifecycleSeq = s.currentSeq := hb.fit.seqs
  have hfit := hb.fit.restart hs
  unfold Sender.restart Sender.disconnect at ht
  dsimp only at ht
  rw [if_neg (by simp [hc])] at ht
  have hcur : t.currentSeq = s.lifecycleSeq + 1 := congrArg Sender.currentSeq ht
  have hout : t.sender.outstanding = s.outstanding := congrArg Sender.outstanding ht
  have hposted : starts t.posted = starts s.posted ++ [s.lifecycleSeq + 1] := by
    rw [show t.posted = s.posted ++ [.start (s.lifecycleSeq + 1)] from congrArg Sender.posted ht, starts_append]
    rfl
  have hold : ∀ o ∈ s.outstanding, o.operation.seq < s.lifecycleSeq + 1 := by
    intro o ho
    have hle := hb.within.outstanding o ho
    omega
  constructor
  · rw [ht]
    unfold Sender.restart Sender.disconnect at hfit
    dsimp only at hfit
    rw [if_neg (by simp [hc])] at hfit
    exact hfit
  · intro h0
    omega
  · rw [show t.script = s.script from congrArg Sender.script ht]
    exact hb.script
  · refine ⟨rfl,fun o ho => ?_⟩
    rw [hout] at ho
    exact (hold o ho).le.trans hcur.ge
  · rw [hposted, List.pairwise_append]
    refine ⟨hb.sorted,List.pairwise_singleton _ _,fun k hk m hm => ?_⟩
    have hle := hb.starts_le hk
    rw [List.mem_singleton.mp hm]
    omega
  · intro k hk
    rw [hposted, List.getLast?_concat] at hk
    cases hk
    exact hcur.symm
  · intro _
    refine ⟨(congrArg Sender.connected ht).trans hc,fun o ho => ?_⟩
    rw [hout] at ho
    exact (hold o ho).ne.trans_eq hcur.symm

end Begun

/-- Every step is a sequence of moves. -/
theorem Begun.step (hb : Begun cfg allow s) {op : StepOp} (hshow : ∀ flaw, s.Shows op flaw → allow flaw) :
    TcpClient.Moves cfg allow (.empty,s.sender) (.empty,(s.step cfg op).sender) ∧ Begun cfg allow (s.step cfg op) := by
  have hstart : TcpClient.Moves cfg allow (.empty,s.sender) (.empty,s.start.sender) ∧ Begun cfg allow s.start := by
    rcases s.start_sender with heq | ⟨hs,heq⟩
    · rw [heq]
      exact ⟨.refl,hb⟩
    · refine ⟨.single ?_,hb.restart hs heq⟩
      rw [heq]
      exact .restart s.sender hs
  by_cases h0 : s.currentSeq = 0
  · have hd := hb.dormant h0
    have hp : s.posted = [] := hd.posted
    have ho : s.outstanding = [] := hd.outstanding
    cases op with
    | caller op =>
      obtain ⟨hcalm,hd'⟩ : Calm cfg allow s (s.callerStep cfg op) ∧ Dormant (s.callerStep cfg op).sender :=
        callerStep_dormant hd
      exact ⟨hcalm.moves,hb.dormantStep hcalm hd'⟩
    | start => exact hstart
    | handler script =>
      rw [State.step, hp]
      exact ⟨.refl,hb⟩
    | complete index r script =>
      rw [State.step, ho]
      exact ⟨.refl,hb⟩
  · cases op with
    | caller op => exact ⟨(step_reaches ⟨h0,hb.script⟩ hb.sound hshow (by simp)).moves,hb.caller h0 hshow⟩
    | start => exact hstart
    | handler script => exact ⟨(step_reaches ⟨h0,hb.script⟩ hb.sound hshow (by simp)).moves,hb.handler h0 hshow⟩
    | complete index r script =>
      exact ⟨(step_reaches ⟨h0,hb.script⟩ hb.sound hshow (by simp)).moves,hb.complete h0 hshow⟩

/-- What every move keeps holds after every run that shows only what is allowed. -/
theorem run_keeps {J : Hand → Sender N → Prop}
    (hmove : ∀ {h a h' a'}, Move cfg allow (h,a) (h',a') → Sender.Fit cfg h a → J h a → J h' a')
    (settings : Settings) (ops : List StepOp) (hinit : J .empty (init settings : State N).sender)
    (hops : Heeds cfg allow (init settings : State N) ops) :
    Sender.Fit cfg .empty ((init settings : State N).run cfg ops).sender ∧
      J .empty ((init settings : State N).run cfg ops).sender := by
  have hrun : ∀ (ops : List StepOp) (s : State N), Begun cfg allow s → J .empty s.sender → Heeds cfg allow s ops →
      Begun cfg allow (s.run cfg ops) ∧ J .empty (s.run cfg ops).sender := by
    intro ops
    induction ops with
    | nil => exact fun s hb hj _ => ⟨hb,hj⟩
    | cons op ops ih =>
      intro s hb hj hops
      obtain ⟨hmoves,hb'⟩ := hb.step hops.1
      have hkept : Sender.Fit cfg .empty (s.step cfg op).sender ∧ J .empty (s.step cfg op).sender :=
        TcpClient.Moves.keeps (J := fun h a => Sender.Fit cfg h a ∧ J h a)
          (fun hm hf => ⟨hf.1.move hm,hmove hm hf.1 hf.2⟩) hmoves ⟨hb.fit,hj⟩
      exact ih _ hb' hkept.2 hops.2
  obtain ⟨hb,hj⟩ := hrun ops _ (begun_init settings) hinit hops
  exact ⟨hb.fit,hj⟩

end State
end Wirestead.Transport.TcpClient
