import Wirestead.Transport.Serial.State

/-! # Connections and handlers of the serial transport

What holds at every point of a handler: completions and posted writes name connections
that are over or the one that is open, and the trace tells each connection once.
-/
namespace Wirestead.Transport.Serial

/-- The connection for which an operation was started. -/
def Operation.connection? : Operation → Option ℕ
  | .read connection => some connection
  | .write connection _ _ => some connection
  | _ => none

/-- The buffer that a handler carries. -/
def Handler.item? : Handler → Option Tagged
  | .write item _ => some item
  | .tryWrite item _ => some item
  | _ => none

namespace State

/-- Connections are told apart by their number. -/
structure Told (s : State) : Prop where
  starts : ∀ g, Handler.start g ∈ s.posted → g ≤ s.generation
  ops : ∀ o ∈ s.outstanding, ∀ c ∈ o.operation.connection?,
    c ≤ s.connectionSeq ∧ (c = s.connectionSeq → s.opened = true)
  batches : ∀ o ∈ s.outstanding, ∀ c batch bytes, o.operation = .write c batch bytes →
    ∀ item ∈ batch, item.connection = c
  posts : ∀ h ∈ s.posted, ∀ item ∈ h.item?,
    item.connection ≤ s.connectionSeq ∧ (item.connection = s.connectionSeq → s.opened = true)
  current : s.opened = true → Event.opened s.connectionSeq ∈ s.trace
  openedLe : ∀ c, Event.opened c ∈ s.trace → c ≤ s.connectionSeq
  endedLt : ∀ c, Event.ended c ∈ s.trace → c < s.connectionSeq
  lost : ∀ c, Event.opened c ∈ s.trace → (s.opened = true ∧ c = s.connectionSeq) ∨ Event.ended c ∈ s.trace
  once : ∀ c, s.trace.count (.opened c) ≤ 1 ∧ s.trace.count (.ended c) ≤ 1
  sent : ∀ c batch, Event.asyncWrite c batch ∈ s.trace → ∀ item ∈ batch, item.connection = c

/-- The run is started and not cleaned up. -/
structure Sound (s : State) : Prop extends Told s where
  running : s.generation ≠ 0
  started : s.started = true
  cleanupStarted : s.cleanupStarted = false
  cleanupFinished : s.cleanupFinished = false
  startsOnce : s.posted.count (.start s.generation) ≤ 1
  stops : Handler.stopCleanup ∈ s.posted → s.stopping = true
  stopsOnce : s.posted.count .stopCleanup ≤ 1

/-- The start handler of the run is not posted any more. -/
def Free (s : State) : Prop := Handler.start s.generation ∉ s.posted

/-- Only the stop flag, the posted handlers and what the callbacks are to do differ. -/
structure Same (s t : State) : Prop where
  opened : t.opened = s.opened
  portOpen : t.portOpen = s.portOpen
  state : t.state = s.state
  connectionSeq : t.connectionSeq = s.connectionSeq
  outstanding : t.outstanding = s.outstanding
  tx : t.tx = s.tx
  pending : t.pending = s.pending
  trace : t.trace = s.trace
  generation : t.generation = s.generation
  opens : t.script.opens = s.script.opens
  stopping : s.stopping = true → t.stopping = true
  free : s.Free → t.Free

namespace Same
variable {s t u : State}

theorem refl (s : State) : Same s s := ⟨rfl,rfl,rfl,rfl,rfl,rfl,rfl,rfl,rfl,rfl,id,id⟩

theorem trans (h : Same s t) (h' : Same t u) : Same s u where
  opened := h'.opened.trans h.opened
  portOpen := h'.portOpen.trans h.portOpen
  state := h'.state.trans h.state
  connectionSeq := h'.connectionSeq.trans h.connectionSeq
  outstanding := h'.outstanding.trans h.outstanding
  tx := h'.tx.trans h.tx
  pending := h'.pending.trans h.pending
  trace := h'.trace.trans h.trace
  generation := h'.generation.trans h.generation
  opens := h'.opens.trans h.opens
  stopping := fun hs => h'.stopping (h.stopping hs)
  free := fun hf => h'.free (h.free hf)

end Same

namespace Told
variable {s : State}

theorem cancelWhere (h : s.Told) (p : Operation → Bool) : (s.cancelWhere p).Told := by
  have hback : ∀ o ∈ (s.cancelWhere p).outstanding, ∃ o' ∈ s.outstanding, o'.operation = o.operation := by
    intro o hmem
    obtain ⟨o',hmem',rfl⟩ := List.mem_map.mp hmem
    refine ⟨o',hmem',?_⟩
    split <;> rfl
  refine { h with ops := ?_, batches := ?_ }
  · intro o hmem c hc
    obtain ⟨o',hmem',heq⟩ := hback o hmem
    exact h.ops o' hmem' c (by rw [heq]; exact hc)
  · intro o hmem c batch bytes hop
    obtain ⟨o',hmem',heq⟩ := hback o hmem
    exact h.batches o' hmem' c batch bytes (heq.trans hop)

/-- The connection ends: its number is over for every completion and every buffer. -/
theorem markDisconnected (h : s.Told) : s.markDisconnected.Told ∧ s.markDisconnected.opened = false := by
  unfold State.markDisconnected
  split
  · rename_i ho
    refine ⟨{ h with ops := ?_, posts := ?_, current := nofun, openedLe := ?_, endedLt := ?_, lost := ?_, once := ?_,
                     sent := ?_ },rfl⟩
    · intro o hmem c hc
      have := (h.ops o hmem c hc).1
      exact ⟨by dsimp only; omega,fun heq => by dsimp only at heq; omega⟩
    · intro h' hmem item hitem
      have := (h.posts h' hmem item hitem).1
      exact ⟨by dsimp only; omega,fun heq => by dsimp only at heq; omega⟩
    · intro c hmem
      rcases List.mem_cons.mp hmem with heq | hmem
      · cases heq
      · have := h.openedLe c hmem
        dsimp only
        omega
    · intro c hmem
      rcases List.mem_cons.mp hmem with heq | hmem
      · cases heq
        exact Nat.lt_succ_self _
      · have := h.endedLt c hmem
        dsimp only
        omega
    · intro c hmem
      rcases List.mem_cons.mp hmem with heq | hmem
      · cases heq
      · rcases h.lost c hmem with hcur | hended
        · rw [hcur.2]
          exact Or.inr List.mem_cons_self
        · exact Or.inr (List.mem_cons_of_mem _ hended)
    · intro c
      refine ⟨?_,?_⟩
      · rw [List.count_cons_of_ne (by simp)]
        exact (h.once c).1
      · by_cases heq : c = s.connectionSeq
        · subst heq
          have hzero : s.trace.count (.ended s.connectionSeq) = 0 :=
            List.count_eq_zero.mpr (fun hmem => absurd (h.endedLt _ hmem) (lt_irrefl _))
          rw [List.count_cons_self, hzero]
        · rw [List.count_cons_of_ne (by simpa using Ne.symm heq)]
          exact (h.once c).2
    · intro c batch hmem
      rcases List.mem_cons.mp hmem with heq | hmem
      · cases heq
      · exact h.sent c batch hmem
  · rename_i ho
    exact ⟨h,by simpa using ho⟩

end Told

namespace Sound
variable {s : State}

/-- A handler is posted that does not start the run. -/
theorem post (h : s.Sound) (handler : Handler) (hstart : ∀ g, handler ≠ .start g)
    (hstop : handler = .stopCleanup → s.stopping = true ∧ Handler.stopCleanup ∉ s.posted)
    (hitem : ∀ item ∈ handler.item?, item.connection = s.connectionSeq ∧ s.opened = true) :
    (s.post handler).Sound ∧ Same s (s.post handler) := by
  have hnew : ∀ {h' : Handler}, h' ∈ s.posted ++ [handler] → h' ∈ s.posted ∨ h' = handler := by
    intro h' hmem
    simpa using hmem
  have hfree : s.Free → (s.post handler).Free := by
    intro hf hmem
    rcases hnew hmem with hmem | heq
    · exact hf hmem
    · exact hstart _ heq.symm
  refine ⟨{ h with starts := ?_, startsOnce := ?_, stops := ?_, stopsOnce := ?_, posts := ?_ },
    ⟨rfl,rfl,rfl,rfl,rfl,rfl,rfl,rfl,rfl,rfl,id,hfree⟩⟩
  · intro g hmem
    rcases hnew hmem with hmem | heq
    · exact h.starts g hmem
    · exact absurd heq.symm (hstart g)
  · intro h' hmem item hitem'
    rcases hnew hmem with hmem | heq
    · exact h.posts h' hmem item hitem'
    · subst heq
      obtain ⟨hc,ho⟩ := hitem item hitem'
      exact ⟨hc.le,fun _ => ho⟩
  · have hzero : List.count (Handler.start s.generation) [handler] = 0 :=
      List.count_eq_zero.mpr (fun hmem => hstart _ (List.mem_singleton.mp hmem).symm)
    change (s.posted ++ [handler]).count (Handler.start s.generation) ≤ 1
    rw [List.count_append, hzero]
    exact h.startsOnce
  · intro hmem
    rcases hnew hmem with hmem | heq
    · exact h.stops hmem
    · exact (hstop heq.symm).1
  · change (s.posted ++ [handler]).count Handler.stopCleanup ≤ 1
    rw [List.count_append]
    by_cases heq : handler = .stopCleanup
    · subst heq
      have hzero := List.count_eq_zero.mpr (hstop rfl).2
      rw [hzero]
      exact Nat.le_refl 1
    · have hzero : List.count Handler.stopCleanup [handler] = 0 :=
        List.count_eq_zero.mpr (fun hmem => heq (List.mem_singleton.mp hmem).symm)
      rw [hzero]
      exact h.stopsOnce

theorem stop (h : s.Sound) : s.stop.Sound ∧ Same s s.stop := by
  unfold State.stop
  split
  · exact ⟨h,.refl s⟩
  · rename_i hstop
    have hflag : State.Sound { s with stopping := true } := { h with stops := fun _ => rfl }
    have hsame : Same s { s with stopping := true } := ⟨rfl,rfl,rfl,rfl,rfl,rfl,rfl,rfl,rfl,rfl,fun _ => rfl,id⟩
    dsimp only
    rw [if_neg h.running]
    have hposted := hflag.post .stopCleanup nofun (fun _ => ⟨rfl,fun hmem => hstop (h.stops hmem)⟩)
      (fun item hitem => by cases hitem)
    exact ⟨hposted.1,hsame.trans hposted.2⟩

theorem admitted (h : s.Sound) {handler : Handler} (ha : s.admits = true) (hstart : ∀ g, handler ≠ .start g)
    (hstop : handler ≠ .stopCleanup) (hitem : ∀ item ∈ handler.item?, item.connection = s.connectionSeq) :
    (s.post handler).Sound ∧ Same s (s.post handler) := by
  have ho : s.opened = true := by
    unfold State.admits at ha
    simp only [Bool.and_eq_true] at ha
    exact ha.2
  exact h.post handler hstart (fun heq => absurd heq hstop) (fun item hmem => ⟨hitem item hmem,ho⟩)

theorem call (h : s.Sound) (op : CallOp) : (s.call op).Sound ∧ Same s (s.call op) := by
  cases op with
  | stop => exact h.stop
  | write item =>
    unfold State.call
    dsimp only
    split
    · rename_i ha
      exact h.admitted ha nofun nofun (fun _ hmem => by cases hmem; rfl)
    · exact ⟨h,.refl s⟩
  | tryWrite item =>
    unfold State.call
    dsimp only
    split
    · rename_i ha
      exact h.admitted ha nofun nofun (fun _ hmem => by cases hmem; rfl)
    · exact ⟨h,.refl s⟩

theorem calls (h : s.Sound) (ops : List CallOp) : (s.calls ops).Sound ∧ Same s (s.calls ops) := by
  induction ops generalizing s with
  | nil => exact ⟨h,.refl s⟩
  | cons op ops ih =>
    obtain ⟨h1,hsame⟩ := h.call op
    obtain ⟨h2,hrest⟩ := ih h1
    exact ⟨h2,hsame.trans hrest⟩

theorem setScript (h : s.Sound) (script : Script) (hopens : script.opens = s.script.opens) :
    State.Sound { s with script := script } ∧ Same s { s with script := script } :=
  ⟨{ h with },⟨rfl,rfl,rfl,rfl,rfl,rfl,rfl,rfl,rfl,hopens,id,id⟩⟩

theorem quietTurn (h : s.Sound) : s.quietTurn.Sound ∧ Same s s.quietTurn := by
  unfold State.quietTurn
  split
  · exact ⟨h,.refl s⟩
  · rename_i turn rest _
    obtain ⟨h1,hs1⟩ := h.setScript { s.script with turns := rest } rfl
    obtain ⟨h2,hs2⟩ := h1.calls (turn.before ++ turn.after)
    exact ⟨h2,hs1.trans hs2⟩

theorem notifyLost (h : s.Sound) : s.notifyLost.Sound ∧ Same s s.notifyLost := by
  unfold State.notifyLost
  split
  · exact ⟨h,.refl s⟩
  · exact h.quietTurn

theorem cancelWhere (h : s.Sound) (p : Operation → Bool) : (s.cancelWhere p).Sound :=
  { h with toTold := h.toTold.cancelWhere p }

theorem startOperation (h : s.Sound) {operation : Operation}
    (hconn : ∀ c ∈ operation.connection?, c = s.connectionSeq ∧ s.opened = true)
    (hbatch : ∀ c batch bytes, operation = .write c batch bytes → ∀ item ∈ batch, item.connection = c) :
    (s.startOperation operation).Sound := by
  have hnew : ∀ {o : Outstanding}, o ∈ s.outstanding ++ [⟨operation,false⟩] →
      o ∈ s.outstanding ∨ o = ⟨operation,false⟩ := by
    intro o hmem
    simpa using hmem
  refine { h with ops := ?_, batches := ?_ }
  · intro o hmem c hc
    rcases hnew hmem with hmem | rfl
    · exact h.ops o hmem c hc
    · obtain ⟨heq,ho⟩ := hconn c hc
      exact ⟨heq.le,fun _ => ho⟩
  · intro o hmem c batch bytes hop
    rcases hnew hmem with hmem | rfl
    · exact h.batches o hmem c batch bytes hop
    · exact hbatch c batch bytes hop

theorem markDisconnected (h : s.Sound) : s.markDisconnected.Sound ∧ s.markDisconnected.opened = false := by
  obtain ⟨htold,ho⟩ := h.toTold.markDisconnected
  refine ⟨?_,ho⟩
  unfold State.markDisconnected at htold ⊢
  split at htold
  · rename_i hup
    rw [if_pos hup]
    exact { h with toTold := htold }
  · rename_i hup
    rw [if_neg hup]
    exact h

/-- A new connection gets a number of its own. -/
theorem establish (h : s.Sound) (ho : s.opened = false) : s.establish.Sound := by
  refine { h with ops := ?_, posts := ?_, current := fun _ => List.mem_cons_self, openedLe := ?_, endedLt := ?_,
                  lost := ?_, once := ?_, sent := ?_ }
  · intro o hmem c hc
    have := (h.ops o hmem c hc).1
    exact ⟨by change c ≤ s.connectionSeq + 1; omega,fun _ => rfl⟩
  · intro h' hmem item hitem
    have := (h.posts h' hmem item hitem).1
    exact ⟨by change item.connection ≤ s.connectionSeq + 1; omega,fun _ => rfl⟩
  · intro c hmem
    rcases List.mem_cons.mp hmem with heq | hmem
    · cases heq
      exact le_rfl
    · exact (h.openedLe c hmem).trans (Nat.le_succ _)
  · intro c hmem
    rcases List.mem_cons.mp hmem with heq | hmem
    · cases heq
    · exact (h.endedLt c hmem).trans (Nat.lt_succ_self _)
  · intro c hmem
    rcases List.mem_cons.mp hmem with heq | hmem
    · cases heq
      exact Or.inl ⟨rfl,rfl⟩
    · rcases h.lost c hmem with hcur | hended
      · rw [ho] at hcur
        cases hcur.1
      · exact Or.inr (List.mem_cons_of_mem _ hended)
  · intro c
    refine ⟨?_,?_⟩
    · by_cases heq : c = s.connectionSeq + 1
      · subst heq
        have hzero : s.trace.count (.opened (s.connectionSeq + 1)) = 0 :=
          List.count_eq_zero.mpr (fun hmem => absurd (h.openedLe _ hmem) (by omega))
        change List.count _ (Event.opened (s.connectionSeq + 1) :: s.trace) ≤ 1
        rw [List.count_cons_self, hzero]
      · change List.count _ (Event.opened (s.connectionSeq + 1) :: s.trace) ≤ 1
        rw [List.count_cons_of_ne (by simpa using Ne.symm heq)]
        exact (h.once c).1
    · change List.count _ (Event.opened (s.connectionSeq + 1) :: s.trace) ≤ 1
      rw [List.count_cons_of_ne (by simp)]
      exact (h.once c).2
  · intro c batch hmem
    rcases List.mem_cons.mp hmem with heq | hmem
    · cases heq
    · exact h.sent c batch hmem

/-- A batch is handed to the port. -/
theorem recordWrite (h : s.Sound) {batch : List Tagged} (hb : ∀ item ∈ batch, item.connection = s.connectionSeq) :
    State.Sound { s with trace := .asyncWrite s.connectionSeq batch :: s.trace } := by
  have hold : ∀ {e : Event}, e ∈ s.trace → e ∈ Event.asyncWrite s.connectionSeq batch :: s.trace :=
    fun hmem => List.mem_cons_of_mem _ hmem
  refine { h with current := fun ho => hold (h.current ho), openedLe := ?_, endedLt := ?_, lost := ?_, once := ?_,
                  sent := ?_ }
  · intro c hmem
    rcases List.mem_cons.mp hmem with heq | hmem
    · cases heq
    · exact h.openedLe c hmem
  · intro c hmem
    rcases List.mem_cons.mp hmem with heq | hmem
    · cases heq
    · exact h.endedLt c hmem
  · intro c hmem
    rcases List.mem_cons.mp hmem with heq | hmem
    · cases heq
    · exact (h.lost c hmem).imp_right hold
  · intro c
    refine ⟨?_,?_⟩
    · rw [List.count_cons_of_ne (by simp)]
      exact (h.once c).1
    · rw [List.count_cons_of_ne (by simp)]
      exact (h.once c).2
  · intro c batch' hmem
    rcases List.mem_cons.mp hmem with heq | hmem
    · cases heq
      exact hb
    · exact h.sent c batch' hmem

end Sound
end State
end Wirestead.Transport.Serial
