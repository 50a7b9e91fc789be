import Wirestead.Transport.Serial.Phases

/-! # Runs of the serial transport

A transport is unused, waits for its start handler, runs, or has been cleaned up. Every
step leads from one of these to one of these, unless a call that opens or configures the
device reports `operation_aborted`: `handle_error` takes that for a closed port that is
to be opened again, and no retry is armed.
-/
namespace Wirestead.Transport.Serial.State
open TcpClient (LinkState)
variable {cfg : Config} {s : State}

/-- A run that was cleaned up; its last completions may still be due. -/
structure Halted (s : State) : Prop extends Told s where
  running : s.generation ≠ 0
  cleanupStarted : s.cleanupStarted = true
  cleanupFinished : s.cleanupFinished = true
  stopping : s.stopping = true
  opened : s.opened = false
  portOpen : s.portOpen = false
  empty : s.tx = [] ∧ s.pending = []
  stops : Handler.stopCleanup ∉ s.posted
  done : s.started = false → s.outstanding = []

/-- The start handler is to run. -/
structure Waiting (s : State) : Prop extends Sound s where
  state : s.state = .idle
  opened : s.opened = false
  portOpen : s.portOpen = false
  outstanding : s.outstanding = []
  empty : s.tx = [] ∧ s.pending = []

/-- A transport that was never started. -/
structure Unused (s : State) : Prop extends Told s where
  generation : s.generation = 0
  started : s.started = false
  posted : s.posted = []
  outstanding : s.outstanding = []
  opened : s.opened = false
  portOpen : s.portOpen = false
  empty : s.tx = [] ∧ s.pending = []
  idle : s.stopping = false → s.state = .idle

inductive Inv (s : State) : Prop
  | unused (h : s.Unused)
  | waiting (h : s.Waiting)
  | settled (h : s.Settled)
  | halted (h : s.Halted)

/-- If the handler opens the device, no call of the port reports `operation_aborted`. -/
def StepOp.Unaborted : StepOp → Prop
  | .handler script => ¬script.opens.Aborted
  | .complete _ _ script => ¬script.opens.Aborted
  | _ => True

/-- A part of the posted handlers. -/
theorem Told.pop (h : s.Told) {handler : Handler} {rest : List Handler} (hp : s.posted = handler :: rest)
    (script : Script) : State.Told { s with posted := rest, script := script } := by
  have hold : ∀ {h' : Handler}, h' ∈ rest → h' ∈ s.posted := fun hmem => by
    rw [hp]
    exact List.mem_cons_of_mem _ hmem
  exact { h with starts := fun g hmem => h.starts g (hold hmem), posts := fun h' hmem => h.posts h' (hold hmem) }

theorem Sound.pop (h : s.Sound) {handler : Handler} {rest : List Handler} (hp : s.posted = handler :: rest)
    (script : Script) : State.Sound { s with posted := rest, script := script } := by
  have hold : ∀ {h' : Handler}, h' ∈ rest → h' ∈ s.posted := fun hmem => by
    rw [hp]
    exact List.mem_cons_of_mem _ hmem
  have hcount : ∀ h' : Handler, rest.count h' ≤ s.posted.count h' := fun h' => by
    rw [hp]
    exact (List.sublist_cons_self handler rest).count_le h'
  exact { h with toTold := h.toTold.pop hp script
                 startsOnce := (hcount _).trans h.startsOnce
                 stops := fun hmem => h.stops (hold hmem)
                 stopsOnce := (hcount _).trans h.stopsOnce }

/-- A handler that is posted once is not posted after it ran. -/
theorem not_mem_rest {handler : Handler} {rest : List Handler} (h : (handler :: rest).count handler ≤ 1) :
    handler ∉ rest := by
  intro hmem
  rw [List.count_cons_self] at h
  have := List.count_pos_iff.mpr hmem
  omega

theorem Told.erase (h : s.Told) (index : ℕ) (script : Script) :
    State.Told { s with outstanding := s.outstanding.eraseIdx index, script := script } :=
  { h with ops := fun o hmem => h.ops o (List.mem_of_mem_eraseIdx hmem)
           batches := fun o hmem => h.batches o (List.mem_of_mem_eraseIdx hmem) }

theorem armedRetries_eraseIdx {index : ℕ} {o : Outstanding} (ho : s.outstanding[index]? = some o) (script : Script) :
    s.armedRetries =
      State.armedRetries { s with outstanding := s.outstanding.eraseIdx index, script := script } +
        if !o.cancelled && onRetryTimer o.operation then 1 else 0 := by
  obtain ⟨hlt,rfl⟩ := List.getElem?_eq_some_iff.mp ho
  unfold State.armedRetries
  rw [← (List.getElem_cons_eraseIdx_perm hlt).countP_eq, List.countP_cons]

/-- While nothing is open only the start of the run does something. -/
theorem runHandler_idle (ho : s.opened = false) {handler : Handler}
    (hstart : ∀ g, handler = .start g → g ≠ s.generation ∨ s.stopping = true)
    (hitem : ∀ item ∈ handler.item?, item.connection ≠ s.connectionSeq) (hstop : handler ≠ .stopCleanup) :
    s.runHandler cfg handler = s := by
  cases handler with
  | start g => exact if_pos (hstart g rfl)
  | write item g => exact if_pos (Or.inr (hitem item rfl))
  | tryWrite item g => exact if_pos (Or.inr (hitem item rfl))
  | failReceive connection run =>
    have hnone : s.writeConnection = none := if_pos (Or.inr (by simp [ho]))
    exact if_pos (Or.inr (by rw [hnone]; exact nofun))
  | stopCleanup => exact absurd rfl hstop

/-- Nor does a completion, unless it is a retry that is due. -/
theorem runCompletion_idle (ho : s.opened = false) {o : Outstanding}
    (hconn : ∀ c ∈ o.operation.connection?, c ≠ s.connectionSeq)
    (hretry : o.operation = .retry → o.cancelled = true ∨ s.stopping = true) (r : Completion) :
    s.runCompletion cfg o r = s := by
  unfold State.runCompletion
  cases hop : o.operation with
  | read connection =>
    rw [hop] at hconn
    exact if_pos (Or.inr (hconn connection rfl))
  | write connection batch bytes =>
    rw [hop] at hconn
    exact if_pos (hconn connection rfl)
  | rxIdle connection arm => exact if_pos (Or.inr (Or.inr (Or.inr (Or.inl (by simp [ho])))))
  | retry =>
    refine if_neg ?_
    rintro ⟨hec,hs⟩
    rcases hretry hop with hcancel | hstop
    · rw [if_pos hcancel] at hec
      cases hec
    · exact hs hstop

namespace Told

/-- A buffer or an operation of an open connection would name it. -/
theorem item_ne (h : s.Told) (ho : s.opened = false) {handler : Handler} (hmem : handler ∈ s.posted) :
    ∀ item ∈ handler.item?, item.connection ≠ s.connectionSeq := by
  intro item hitem heq
  have hup := (h.posts handler hmem item hitem).2 heq
  rw [ho] at hup
  cases hup

theorem connection_ne (h : s.Told) (ho : s.opened = false) {o : Outstanding} (hmem : o ∈ s.outstanding) :
    ∀ c ∈ o.operation.connection?, c ≠ s.connectionSeq := by
  intro c hc heq
  have hup := (h.ops o hmem c hc).2 heq
  rw [ho] at hup
  cases hup

theorem release (h : s.Told) : s.release.Told := by
  obtain ⟨hlost,ho⟩ := (h.cancelWhere onRetryTimer).markDisconnected
  have hdiscard : (s.cancelWhere onRetryTimer).markDisconnected.discardConnectionWrites.Told := { hlost with }
  have hclose : (s.cancelWhere onRetryTimer).markDisconnected.discardConnectionWrites.closePort.Told :=
    { (hdiscard.cancelWhere onRxIdleTimer).cancelWhere onPort with }
  have hopened : (s.cancelWhere onRetryTimer).markDisconnected.discardConnectionWrites.closePort.opened = false := by
    rw [closePort_opened, discardConnectionWrites_opened]
    exact ho
  have heq := setOpened_eq hopened
  have hrelease : s.release =
      { { (s.cancelWhere onRetryTimer).markDisconnected.discardConnectionWrites.closePort with opened := false } with
        state := .closed } := rfl
  rw [hrelease, heq]
  exact { hclose with }

end Told

/-- What the cleanup does not touch. -/
structure Kept (s t : State) : Prop where
  generation : t.generation = s.generation
  posted : t.posted = s.posted
  stopping : t.stopping = s.stopping
  started : t.started = s.started
  cleanupStarted : t.cleanupStarted = s.cleanupStarted

namespace Kept

theorem trans {s t u : State} (h : Kept s t) (h' : Kept t u) : Kept s u :=
  ⟨h'.generation.trans h.generation,h'.posted.trans h.posted,h'.stopping.trans h.stopping,h'.started.trans h.started,
    h'.cleanupStarted.trans h.cleanupStarted⟩

theorem cancelWhere (s : State) (p : Operation → Bool) : Kept s (s.cancelWhere p) := ⟨rfl,rfl,rfl,rfl,rfl⟩

theorem markDisconnected (s : State) : Kept s s.markDisconnected := by
  unfold State.markDisconnected
  split
  · exact ⟨rfl,rfl,rfl,rfl,rfl⟩
  · exact ⟨rfl,rfl,rfl,rfl,rfl⟩

theorem discardConnectionWrites (s : State) : Kept s s.discardConnectionWrites := ⟨rfl,rfl,rfl,rfl,rfl⟩

theorem closePort (s : State) : Kept s s.closePort := ⟨rfl,rfl,rfl,rfl,rfl⟩

theorem setState (s : State) (opened : Bool) (state : LinkState) : Kept s { s with opened := opened, state := state } :=
  ⟨rfl,rfl,rfl,rfl,rfl⟩

theorem release (s : State) : Kept s s.release := by
  have h1 := (cancelWhere s onRetryTimer).trans (markDisconnected _)
  have h2 := (h1.trans (discardConnectionWrites _)).trans (closePort _)
  exact h2.trans (setState _ false .closed)

end Kept

theorem Halted.markCleanupDone (h : s.Halted) (ho : s.outstanding = []) : s.markCleanupDone.Halted :=
  { h with toTold := { h.toTold with }, done := fun _ => ho }

/-- The cleanup of a stopped run. -/
theorem Sound.performStopCleanup (h : s.Sound) (hs : s.stopping = true) (hp : Handler.stopCleanup ∉ s.posted) :
    s.performStopCleanup.Halted := by
  have hmark : State.Told { s with cleanupStarted := true } := { h.toTold with }
  have htold := hmark.release
  obtain ⟨hgen,hposted,hstop,hstarted,hclean⟩ := Kept.release { s with cleanupStarted := true }
  have hhalt : State.Halted { State.release { s with cleanupStarted := true } with cleanupFinished := true } :=
    { toTold := { htold with }
      running := fun h0 => h.running (hgen.symm.trans h0)
      cleanupStarted := hclean
      cleanupFinished := rfl
      stopping := hstop.trans hs
      opened := rfl
      portOpen := rfl
      empty := ⟨rfl,rfl⟩
      stops := fun hmem => hp (hposted ▸ hmem)
      done := fun hnot => absurd (hnot.symm.trans (hstarted.trans h.started)) nofun }
  unfold State.performStopCleanup
  rw [if_neg (by rw [h.cleanupStarted]; decide)]
  dsimp only
  split
  · rename_i hout
    exact hhalt.markCleanupDone (List.isEmpty_iff.mp hout)
  · exact hhalt

/-- A fresh run. Handlers of earlier runs may still be posted. -/
theorem Told.start (h : s.Told) (hstarted : s.started = false) (ho : s.opened = false) (hp : s.portOpen = false)
    (hout : s.outstanding = []) (hempty : s.tx = [] ∧ s.pending = []) (hstops : Handler.stopCleanup ∉ s.posted) :
    s.start.Waiting := by
  have hnew : ∀ {h' : Handler}, h' ∈ s.posted ++ [.start (s.generation + 1)] →
      h' ∈ s.posted ∨ h' = .start (s.generation + 1) := by
    intro h' hmem
    simpa using hmem
  have hold : Handler.start (s.generation + 1) ∉ s.posted := by
    intro hmem
    have := h.starts _ hmem
    omega
  have hstop : Handler.stopCleanup ∉ s.posted ++ [.start (s.generation + 1)] := by
    intro hmem
    rcases hnew hmem with hmem | heq
    · exact hstops hmem
    · cases heq
  unfold State.start
  rw [if_neg (by rw [hstarted]; decide)]
  refine { h with starts := ?_, ops := ?_, posts := ?_, current := nofun, lost := ?_, running := Nat.succ_ne_zero _,
                  started := rfl, cleanupStarted := rfl, cleanupFinished := rfl, startsOnce := ?_,
                  stops := fun hmem => absurd hmem hstop, stopsOnce := ?_, state := rfl, opened := rfl, portOpen := hp,
                  outstanding := hout, empty := hempty }
  · intro g hmem
    rcases hnew hmem with hmem | heq
    · exact (h.starts g hmem).trans (Nat.le_succ _)
    · cases heq
      exact le_rfl
  · intro o hmem
    change o ∈ s.outstanding at hmem
    rw [hout] at hmem
    cases hmem
  · intro h' hmem item hitem
    rcases hnew hmem with hmem | heq
    · exact ⟨(h.posts h' hmem item hitem).1,fun heq => absurd heq (h.item_ne ho hmem item hitem)⟩
    · rw [heq] at hitem
      cases hitem
  · intro c hmem
    rcases h.lost c hmem with hcur | hended
    · rw [ho] at hcur
      cases hcur.1
    · exact Or.inr hended
  · change (s.posted ++ [Handler.start (s.generation + 1)]).count (Handler.start (s.generation + 1)) ≤ 1
    rw [List.count_append, List.count_eq_zero.mpr hold, List.count_singleton_self]
  · exact (List.count_eq_zero.mpr hstop).le.trans (Nat.zero_le _)

theorem failReceive_idle (ho : s.opened = false) : s.failReceive = s := by
  unfold State.failReceive
  rw [State.writeConnection, if_pos (Or.inr (by simp [ho]))]

/-- Only an open connection takes buffers. -/
theorem call_idle (ha : s.admits = false) {op : CallOp} (hop : op ≠ .stop) : s.call op = s := by
  cases op with
  | stop => exact absurd rfl hop
  | write item => exact if_neg (by rw [ha]; decide)
  | tryWrite item => exact if_neg (by rw [ha]; decide)

section Empty

theorem cancelWhere_empty (h : s.outstanding = []) (p : Operation → Bool) : (s.cancelWhere p).outstanding = [] := by
  change s.outstanding.map _ = []
  rw [h]
  rfl

theorem markDisconnected_empty (h : s.outstanding = []) : s.markDisconnected.outstanding = [] := by
  unfold State.markDisconnected
  split
  · exact h
  · exact h

theorem release_empty (h : s.outstanding = []) : s.release.outstanding = [] := by
  have hlost := markDisconnected_empty (cancelWhere_empty h onRetryTimer)
  have hdiscard : (s.cancelWhere onRetryTimer).markDisconnected.discardConnectionWrites.outstanding = [] := hlost
  exact cancelWhere_empty (cancelWhere_empty hdiscard onRxIdleTimer) onPort

end Empty

namespace Unused

theorem markCleanupDone (h : s.Unused) : s.markCleanupDone.Unused :=
  { h with toTold := { h.toTold with }, started := rfl }

theorem stop (h : s.Unused) : s.stop.Unused := by
  unfold State.stop
  split
  · exact h
  · have hflag : State.Unused { s with stopping := true } := { h with toTold := { h.toTold with }, idle := nofun }
    dsimp only
    rw [if_pos h.generation]
    unfold State.performStopCleanup
    split
    · exact hflag
    · have hmark : State.Told { s with stopping := true, cleanupStarted := true } := { h.toTold with }
      have htold := hmark.release
      obtain ⟨hgen,hposted,hstop,hstarted,-⟩ := Kept.release { s with stopping := true, cleanupStarted := true }
      have hhalt : State.Unused { State.release { s with stopping := true, cleanupStarted := true } with
          cleanupFinished := true } :=
        { toTold := { htold with }
          generation := hgen.trans h.generation
          started := hstarted.trans h.started
          posted := hposted.trans h.posted
          outstanding := release_empty h.outstanding
          opened := rfl
          portOpen := rfl
          empty := ⟨rfl,rfl⟩
          idle := fun hnot => absurd (hnot.symm.trans hstop) nofun }
      dsimp only
      split
      · exact hhalt.markCleanupDone
      · exact hhalt

theorem step (h : s.Unused) (op : StepOp) : (s.step cfg op).Inv := by
  cases op with
  | start =>
    refine .waiting (h.toTold.start h.started h.opened h.portOpen h.outstanding h.empty ?_)
    rw [h.posted]
    exact List.not_mem_nil
  | call op =>
    by_cases hop : op = .stop
    · subst hop
      exact .unused h.stop
    · have ha : s.admits = false := by simp [State.admits, h.generation]
      change (s.call op).Inv
      rw [call_idle ha hop]
      exact .unused h
  | failReceive =>
    change s.failReceive.Inv
    rw [failReceive_idle h.opened]
    exact .unused h
  | handler script =>
    unfold State.step
    dsimp only
    rw [h.posted]
    exact .unused h
  | complete index result script =>
    unfold State.step
    dsimp only
    rw [h.outstanding]
    exact .unused h

end Unused

/-- Handlers and completions that do nothing once the run was cleaned up. -/
theorem Halted.ioCompletion (h : s.Halted) : s.ioCompletion.Halted := by
  unfold State.ioCompletion
  split
  · rename_i hdone
    exact h.markCleanupDone (List.isEmpty_iff.mp hdone.1)
  · exact h

theorem Halted.step (h : s.Halted) (op : StepOp) : (s.step cfg op).Inv := by
  cases op with
  | start =>
    cases hs : s.started with
    | true =>
      have heq : s.start = s := if_pos hs
      change s.start.Inv
      rw [heq]
      exact .halted h
    | false => exact .waiting (h.toTold.start hs h.opened h.portOpen (h.done hs) h.empty h.stops)
  | call op =>
    have heq : s.call op = s := by
      by_cases hop : op = .stop
      · subst hop
        exact if_pos h.stopping
      · exact call_idle (by simp [State.admits, h.stopping]) hop
    change (s.call op).Inv
    rw [heq]
    exact .halted h
  | failReceive =>
    change s.failReceive.Inv
    rw [failReceive_idle h.opened]
    exact .halted h
  | handler script =>
    unfold State.step
    dsimp only
    split
    · exact .halted h
    · rename_i handler rest hp
      have hmem : handler ∈ s.posted := by rw [hp]; exact List.mem_cons_self
      have hpop : State.Halted { s with posted := rest, script := script } :=
        { h with toTold := h.toTold.pop hp script
                 stops := fun hin => h.stops (by rw [hp]; exact List.mem_cons_of_mem _ hin) }
      have hrun : State.runHandler cfg { s with posted := rest, script := script } handler =
          { s with posted := rest, script := script } :=
        runHandler_idle hpop.opened (fun _ _ => Or.inr hpop.stopping) (h.toTold.item_ne h.opened hmem)
          (fun heq => h.stops (heq ▸ hmem))
      rw [hrun]
      exact .halted hpop
  | complete index result script =>
    unfold State.step
    dsimp only
    split
    · exact .halted h
    · rename_i o ho
      have herase : State.Halted { s with outstanding := s.outstanding.eraseIdx index, script := script } :=
        { h with toTold := h.toTold.erase index script
                 done := fun hs => by simp [h.done hs] }
      have hrun : State.runCompletion cfg { s with outstanding := s.outstanding.eraseIdx index, script := script } o
          result = { s with outstanding := s.outstanding.eraseIdx index, script := script } :=
        runCompletion_idle herase.opened (h.toTold.connection_ne h.opened (List.mem_of_getElem? ho))
          (fun _ => Or.inr herase.stopping) result
      rw [hrun]
      exact .halted herase.ioCompletion

namespace Settled

theorem pop (h : s.Settled) {handler : Handler} {rest : List Handler} (hp : s.posted = handler :: rest)
    (script : Script) : State.Settled { s with posted := rest, script := script } :=
  ⟨h.sound.pop hp script,fun hmem => h.free (by rw [hp]; exact List.mem_cons_of_mem _ hmem),
    fun hs => (h.phase hs).transfer rfl rfl rfl rfl rfl rfl rfl⟩

theorem handler (h : s.Settled) {handler : Handler} {rest : List Handler} (hp : s.posted = handler :: rest)
    (script : Script) : (State.runHandler cfg { s with posted := rest, script := script } handler).Inv := by
  have hmem : handler ∈ s.posted := by rw [hp]; exact List.mem_cons_self
  have hitem := h.sound.posts handler hmem
  have hpop := h.pop hp script
  cases handler with
  | start g =>
    have heq : g ≠ s.generation := fun heq => h.free (heq ▸ hmem)
    have hsame : State.startOn cfg { s with posted := rest, script := script } g =
        { s with posted := rest, script := script } := if_pos (Or.inl heq)
    change State.Inv (State.startOn cfg _ g)
    rw [hsame]
    exact .settled hpop
  | write item g => exact .settled (onPosted_settled hpop (hitem item rfl).2 g)
  | tryWrite item g => exact .settled (onTryPosted_settled hpop (hitem item rfl).2 g)
  | failReceive connection run => exact .settled (hpop.failReceiveOn connection run)
  | stopCleanup =>
    have honce := h.sound.stopsOnce
    rw [hp] at honce
    exact .halted (hpop.sound.performStopCleanup (h.sound.stops hmem) (not_mem_rest honce))

theorem failReceive (h : s.Settled) : s.failReceive.Settled := by
  unfold State.failReceive
  split
  · exact h
  · have hpost := h.sound.post (.failReceive ‹ℕ› s.generation) nofun nofun (fun item hitem => by cases hitem)
    exact h.of_same hpost.1 hpost.2

/-- No cleanup is under way. -/
theorem ioCompletion (h : s.Settled) : s.ioCompletion.Settled := by
  have heq : s.ioCompletion = s := if_neg (fun h' => by rw [h.sound.cleanupFinished] at h'; cases h'.2)
  rw [heq]
  exact h

end Settled

theorem Sound.start_eq (h : s.Sound) : s.start = s := if_pos h.started

namespace Settled

/-- An operation other than the armed retry completes. -/
theorem erase (h : s.Settled) {index : ℕ} {o : Outstanding} (ho : s.outstanding[index]? = some o) (script : Script)
    (hr : (!o.cancelled && onRetryTimer o.operation) = false) :
    State.Settled { s with outstanding := s.outstanding.eraseIdx index, script := script } := by
  have harmed := armedRetries_eraseIdx ho script
  rw [hr, if_neg (by decide), Nat.add_zero] at harmed
  exact ⟨{ h.sound with toTold := h.sound.toTold.erase index script },h.free,
    fun hs => (h.phase hs).transfer rfl rfl rfl harmed.symm rfl rfl rfl⟩

/-- The armed retry is due: the device is opened again. -/
theorem retry (h : s.Settled) {index : ℕ} {o : Outstanding} (ho : s.outstanding[index]? = some o) (script : Script)
    (hr : (!o.cancelled && onRetryTimer o.operation) = true) (hopens : ¬script.opens.Aborted) :
    (State.onRetry cfg { s with outstanding := s.outstanding.eraseIdx index, script := script } .success).Settled := by
  have harmed := armedRetries_eraseIdx ho script
  rw [hr, if_pos rfl] at harmed
  have hsound : State.Sound { s with outstanding := s.outstanding.eraseIdx index, script := script } :=
    { h.sound with toTold := h.sound.toTold.erase index script }
  unfold State.onRetry
  split
  · rename_i hgo
    have hs : s.stopping = false := by simpa using hgo.2
    cases h.phase hs with
    | rest _ _ _ hr' _ => omega
    | up _ _ _ hr' _ => omega
    | retrying _ hopened _ hr' hq =>
      have hopening : State.Opening { s with outstanding := s.outstanding.eraseIdx index, script := script } :=
        ⟨hsound,h.free,hopened,hq,by omega⟩
      exact hopening.openAndConfigure hopens
  · rename_i hgo
    refine settled_of_stopping hsound h.free ?_
    by_contra hs
    exact hgo ⟨rfl,hs⟩

theorem complete (h : s.Settled) {index : ℕ} {o : Outstanding} (ho : s.outstanding[index]? = some o)
    (r : Completion) {script : Script} (hopens : ¬script.opens.Aborted) :
    (State.runCompletion cfg { s with outstanding := s.outstanding.eraseIdx index, script := script } o r).Settled := by
  have hmem := List.mem_of_getElem? ho
  have hconn := h.sound.ops o hmem
  unfold State.runCompletion
  cases hop : o.operation with
  | read connection =>
    rw [hop] at hconn
    exact onRead_settled (h.erase ho script (by simp [hop, onRetryTimer])) (hconn connection rfl).2 _ _
  | write connection batch bytes =>
    rw [hop] at hconn
    exact onWrite_settled (h.erase ho script (by simp [hop, onRetryTimer])) (hconn connection rfl).2 _ _ _ _
  | rxIdle connection arm => exact onRxIdle_settled (h.erase ho script (by simp [hop, onRetryTimer])) _ _ _
  | retry =>
    cases hcancel : o.cancelled with
    | true => exact h.erase ho script (by simp [hcancel])
    | false => exact h.retry ho script (by simp [hop, hcancel, onRetryTimer]) hopens

theorem step (h : s.Settled) {op : StepOp} (hop : op.Unaborted) : (s.step cfg op).Inv := by
  cases op with
  | start =>
    change s.start.Inv
    rw [h.sound.start_eq]
    exact .settled h
  | call op => exact .settled (h.call op)
  | failReceive => exact .settled h.failReceive
  | handler script =>
    unfold State.step
    dsimp only
    split
    · exact .settled h
    · rename_i handler rest hp
      exact h.handler hp script
  | complete index result script =>
    unfold State.step
    dsimp only
    split
    · exact .settled h
    · rename_i o ho
      exact .settled (h.complete ho result hop).ioCompletion

end Settled

namespace Waiting

theorem of_same {t : State} (h : s.Waiting) (hsound : t.Sound) (hsame : Same s t) : t.Waiting :=
  { toSound := hsound
    state := hsame.state.trans h.state
    opened := hsame.opened.trans h.opened
    portOpen := hsame.portOpen.trans h.portOpen
    outstanding := hsame.outstanding.trans h.outstanding
    empty := ⟨hsame.tx.trans h.empty.1,hsame.pending.trans h.empty.2⟩ }

theorem pop (h : s.Waiting) {handler : Handler} {rest : List Handler} (hp : s.posted = handler :: rest)
    (script : Script) : State.Waiting { s with posted := rest, script := script } :=
  { h with toSound := h.toSound.pop hp script }

/-- The start handler makes the first attempt to open the device. -/
theorem startOn (h : s.Waiting) (hf : s.Free) (hopens : ¬s.script.opens.Aborted) :
    (s.startOn cfg s.generation).Settled := by
  unfold State.startOn
  split
  · rename_i hnot
    refine settled_of_stopping h.toSound hf ?_
    exact hnot.resolve_left (fun hne => hne rfl)
  · have hsound : State.Sound { s with state := .connecting } := { h.toSound with }
    have hopening : State.Opening { s with state := .connecting } :=
      ⟨hsound,hf,h.opened,h.empty,by simp [State.armedRetries, h.outstanding]⟩
    unfold State.notifyState
    split
    · exact hopening.openAndConfigure hopens
    · have hturn : (State.turn cfg { s with state := .connecting }).Sound ∧
          Same { s with state := .connecting } (State.turn cfg { s with state := .connecting }) :=
        turn_same hsound h.opened
      obtain ⟨hs,hsame⟩ := hturn
      refine Opening.openAndConfigure ⟨hs,hsame.free hf,hsame.opened.trans h.opened,?_,?_⟩ ?_
      · exact ⟨hsame.tx.trans h.empty.1,hsame.pending.trans h.empty.2⟩
      · exact hsame.armedRetries.trans hopening.armedRetries
      · rw [hsame.opens]
        exact hopens

theorem handler (h : s.Waiting) {handler : Handler} {rest : List Handler} (hp : s.posted = handler :: rest)
    {script : Script} (hopens : ¬script.opens.Aborted) :
    (State.runHandler cfg { s with posted := rest, script := script } handler).Inv := by
  have hmem : handler ∈ s.posted := by rw [hp]; exact List.mem_cons_self
  have hpop := h.pop hp script
  by_cases hstart : handler = .start s.generation
  · subst hstart
    have honce := h.startsOnce
    rw [hp] at honce
    exact .settled (hpop.startOn (not_mem_rest honce) hopens)
  · by_cases hstop : handler = .stopCleanup
    · subst hstop
      have honce := h.stopsOnce
      rw [hp] at honce
      exact .halted (hpop.toSound.performStopCleanup (h.stops hmem) (not_mem_rest honce))
    · have hrun : State.runHandler cfg { s with posted := rest, script := script } handler =
          { s with posted := rest, script := script } :=
        runHandler_idle hpop.opened (fun g heq => Or.inl (fun hg => hstart (hg ▸ heq)))
          (h.toTold.item_ne h.opened hmem) hstop
      rw [hrun]
      exact .waiting hpop

theorem step (h : s.Waiting) {op : StepOp} (hop : op.Unaborted) : (s.step cfg op).Inv := by
  cases op with
  | start =>
    change s.start.Inv
    rw [h.toSound.start_eq]
    exact .waiting h
  | call op => exact .waiting (h.of_same (h.toSound.call op).1 (h.toSound.call op).2)
  | failReceive =>
    change s.failReceive.Inv
    rw [failReceive_idle h.opened]
    exact .waiting h
  | handler script =>
    unfold State.step
    dsimp only
    split
    · exact .waiting h
    · rename_i handler rest hp
      exact h.handler hp hop
  | complete index result script =>
    unfold State.step
    dsimp only
    rw [h.outstanding]
    exact .waiting h

end Waiting

namespace Inv

theorem init : State.init.Inv := by
  refine .unused { starts := ?_, ops := ?_, batches := ?_, posts := ?_, current := nofun, openedLe := ?_, endedLt := ?_,
                   lost := ?_, once := ?_, sent := ?_, generation := rfl, started := rfl, posted := rfl,
                   outstanding := rfl, opened := rfl, portOpen := rfl, empty := ⟨rfl,rfl⟩, idle := fun _ => rfl }
  all_goals simp [State.init]

theorem step (h : s.Inv) {op : StepOp} (hop : op.Unaborted) : (s.step cfg op).Inv := by
  cases h with
  | unused h => exact h.step op
  | waiting h => exact h.step hop
  | settled h => exact h.step hop
  | halted h => exact h.step op

theorem run (h : s.Inv) {ops : List StepOp} (hops : ∀ op ∈ ops, op.Unaborted) : (s.run cfg ops).Inv := by
  induction ops generalizing s with
  | nil => exact h
  | cons op ops ih =>
    exact ih (h.step (hops op List.mem_cons_self)) (fun op' hmem => hops op' (List.mem_cons_of_mem _ hmem))

theorem told (h : s.Inv) : s.Told := by
  cases h with
  | unused h => exact h.toTold
  | waiting h => exact h.toTold
  | settled h => exact h.sound.toTold
  | halted h => exact h.toTold

end Inv

/-- A device that is given up until the next start. -/
structure Shut (s : State) : Prop extends Told s where
  state : s.state = .error ∨ s.state = .closed
  opened : s.opened = false
  portOpen : s.portOpen = false
  armedRetries : s.armedRetries = 0
  free : s.Free

/-- Nothing was opened, lost or written between the two states. -/
structure Silent (s t : State) : Prop where
  openCalls : t.openCalls = s.openCalls
  trace : t.trace = s.trace

theorem Silent.release (ho : s.opened = false) : Silent s s.release := by
  have hlost : (s.cancelWhere onRetryTimer).markDisconnected = s.cancelWhere onRetryTimer :=
    if_neg (by simp [State.cancelWhere, ho])
  unfold State.release
  rw [hlost]
  constructor <;> simp [State.closePort, State.discardConnectionWrites, State.cancelWhere]

namespace Shut

theorem performStopCleanup (h : s.Shut) : s.performStopCleanup.Shut ∧ Silent s s.performStopCleanup := by
  unfold State.performStopCleanup
  split
  · exact ⟨h,rfl,rfl⟩
  · have hmark : State.Told { s with cleanupStarted := true } := { h.toTold with }
    have hkept := Kept.release { s with cleanupStarted := true }
    have hrelease := Silent.release (s := { s with cleanupStarted := true }) h.opened
    have hsilent : Silent s (State.release { s with cleanupStarted := true }) := ⟨hrelease.openCalls,hrelease.trace⟩
    have hshut : (State.release { s with cleanupStarted := true }).Shut :=
      { toTold := hmark.release
        state := Or.inr rfl
        opened := rfl
        portOpen := rfl
        armedRetries := armedRetries_release _
        free := by
          unfold State.Free
          rw [hkept.generation, hkept.posted]
          exact h.free }
    generalize State.release { s with cleanupStarted := true } = t at hshut hsilent
    dsimp only
    split
    · exact ⟨{ hshut with toTold := { hshut.toTold with } },hsilent.openCalls,hsilent.trace⟩
    · exact ⟨{ hshut with toTold := { hshut.toTold with } },hsilent.openCalls,hsilent.trace⟩

theorem stop (h : s.Shut) : s.stop.Shut ∧ Silent s s.stop := by
  have hflag : State.Shut { s with stopping := true } := { h with toTold := { h.toTold with } }
  unfold State.stop
  split
  · exact ⟨h,rfl,rfl⟩
  · dsimp only
    split
    · have hclean := hflag.performStopCleanup
      exact ⟨hclean.1,hclean.2.openCalls,hclean.2.trace⟩
    · have hnew : ∀ {h' : Handler}, h' ∈ s.posted ++ [.stopCleanup] → h' ∈ s.posted ∨ h' = .stopCleanup := by
        intro h' hmem
        simpa using hmem
      refine ⟨{ hflag with toTold := { hflag.toTold with starts := ?_, posts := ?_ }, free := ?_ },rfl,rfl⟩
      · intro g hmem
        rcases hnew hmem with hmem | heq
        · exact h.starts g hmem
        · cases heq
      · intro h' hmem item hitem
        rcases hnew hmem with hmem | heq
        · exact h.posts h' hmem item hitem
        · rw [heq] at hitem
          cases hitem
      · intro hmem
        rcases hnew hmem with hmem | heq
        · exact h.free hmem
        · cases heq

theorem handler (h : s.Shut) {handler : Handler} {rest : List Handler} (hp : s.posted = handler :: rest)
    (script : Script) :
    (State.runHandler cfg { s with posted := rest, script := script } handler).Shut ∧
      Silent s (State.runHandler cfg { s with posted := rest, script := script } handler) := by
  have hmem : handler ∈ s.posted := by rw [hp]; exact List.mem_cons_self
  have hpop : State.Shut { s with posted := rest, script := script } :=
    { h with toTold := h.toTold.pop hp script
             free := fun hin => h.free (by rw [hp]; exact List.mem_cons_of_mem _ hin) }
  by_cases hstop : handler = .stopCleanup
  · subst hstop
    have hclean := hpop.performStopCleanup
    exact ⟨hclean.1,hclean.2.openCalls,hclean.2.trace⟩
  · have hrun : State.runHandler cfg { s with posted := rest, script := script } handler =
        { s with posted := rest, script := script } :=
      runHandler_idle hpop.opened (fun g heq => Or.inl (fun hg => h.free (hg ▸ heq ▸ hmem)))
        (h.toTold.item_ne h.opened hmem) hstop
    rw [hrun]
    exact ⟨hpop,rfl,rfl⟩

theorem complete (h : s.Shut) {index : ℕ} {o : Outstanding} (ho : s.outstanding[index]? = some o)
    (r : Completion) (script : Script) :
    (State.runCompletion cfg { s with outstanding := s.outstanding.eraseIdx index, script := script } o r) =
      { s with outstanding := s.outstanding.eraseIdx index, script := script } := by
  have hconn := h.toTold.connection_ne h.opened (List.mem_of_getElem? ho)
  have hretry : o.operation = .retry → o.cancelled = true := by
    intro hop
    have harmed := armedRetries_eraseIdx ho script
    rw [h.armedRetries, hop] at harmed
    cases hcancel : o.cancelled with
    | true => rfl
    | false => simp [hcancel, onRetryTimer] at harmed
  exact runCompletion_idle (s := { s with outstanding := s.outstanding.eraseIdx index, script := script }) h.opened
    hconn (fun hop => Or.inl (hretry hop)) r

theorem erase (h : s.Shut) {index : ℕ} {o : Outstanding} (ho : s.outstanding[index]? = some o) (script : Script) :
    State.Shut { s with outstanding := s.outstanding.eraseIdx index, script := script } := by
  have harmed := armedRetries_eraseIdx ho script
  rw [h.armedRetries] at harmed
  exact { h with toTold := h.toTold.erase index script, armedRetries := by omega }

theorem step (h : s.Shut) {op : StepOp} (hop : op ≠ .start) : (s.step cfg op).Shut ∧ Silent s (s.step cfg op) := by
  cases op with
  | start => exact absurd rfl hop
  | call op =>
    by_cases hstop : op = .stop
    · subst hstop
      exact h.stop
    · have ha : s.admits = false := by simp [State.admits, h.opened]
      change (s.call op).Shut ∧ Silent s (s.call op)
      rw [call_idle ha hstop]
      exact ⟨h,rfl,rfl⟩
  | failReceive =>
    change s.failReceive.Shut ∧ Silent s s.failReceive
    rw [failReceive_idle h.opened]
    exact ⟨h,rfl,rfl⟩
  | handler script =>
    unfold State.step
    dsimp only
    split
    · exact ⟨h,rfl,rfl⟩
    · rename_i handler rest hp
      exact h.handler hp script
  | complete index result script =>
    unfold State.step
    dsimp only
    split
    · exact ⟨h,rfl,rfl⟩
    · rename_i o ho
      have herase := h.erase ho script
      rw [h.complete ho result script]
      unfold State.ioCompletion
      split
      · exact ⟨{ herase with toTold := { herase.toTold with } },rfl,rfl⟩
      · exact ⟨herase,rfl,rfl⟩

theorem run (h : s.Shut) {more : List StepOp} (hmore : StepOp.start ∉ more) :
    (s.run cfg more).Shut ∧ Silent s (s.run cfg more) := by
  induction more generalizing s with
  | nil => exact ⟨h,rfl,rfl⟩
  | cons op more ih =>
    have hstep : (s.step cfg op).Shut ∧ Silent s (s.step cfg op) :=
      h.step (fun heq => hmore (heq ▸ List.mem_cons_self))
    obtain ⟨h1,hs1⟩ := hstep
    obtain ⟨h2,hs2⟩ := ih h1 (fun hmem => hmore (List.mem_cons_of_mem _ hmem))
    exact ⟨h2,hs2.openCalls.trans hs1.openCalls,hs2.trace.trans hs1.trace⟩

end Shut

/-- A run that is not stopped is in one of its phases or has not begun. -/
theorem Inv.phase (h : s.Inv) (hs : s.stopping = false) :
    s.Phase ∧ (s.state = .error ∨ s.state = .closed → s.Free) := by
  cases h with
  | unused h =>
    refine ⟨.rest (Or.inl (h.idle hs)) h.opened h.portOpen (by simp [State.armedRetries, h.outstanding]) h.empty,?_⟩
    intro hstate
    rw [h.idle hs] at hstate
    rcases hstate with hstate | hstate <;> cases hstate
  | waiting h =>
    refine ⟨.rest (Or.inl h.state) h.opened h.portOpen (by simp [State.armedRetries, h.outstanding]) h.empty,?_⟩
    intro hstate
    rw [h.state] at hstate
    rcases hstate with hstate | hstate <;> cases hstate
  | settled h => exact ⟨h.phase hs,fun _ => h.free⟩
  | halted h =>
    have hstop := h.stopping
    rw [hs] at hstop
    cases hstop

namespace Phase

theorem opened_iff (h : s.Phase) : s.opened = true ↔ s.state = .connected ∧ s.portOpen = true := by
  cases h with
  | rest hs ho hp => simp [ho, hp]
  | retrying hs ho hp => simp [ho, hp]
  | up hs ho hp => simp [hs, ho, hp]

theorem armed (h : s.Phase) (hs : s.state = .connecting) : s.armedRetries = 1 := by
  cases h with
  | rest hs' =>
    rw [hs] at hs'
    rcases hs' with hs' | hs' | hs' <;> cases hs'
  | retrying _ _ _ hr => exact hr
  | up hs' =>
    rw [hs] at hs'
    cases hs'

theorem shut (h : s.Phase) (htold : s.Told) (hf : s.Free) (hs : s.state = .error ∨ s.state = .closed) : s.Shut := by
  cases h with
  | rest _ ho hp hr => exact ⟨htold,hs,ho,hp,hr,hf⟩
  | retrying hs' =>
    rw [hs'] at hs
    rcases hs with hs | hs <;> cases hs
  | up hs' =>
    rw [hs'] at hs
    rcases hs with hs | hs <;> cases hs

end Phase

/-- Each connection is opened once, and lost once unless it is the open one. -/
theorem Told.connections (h : s.Told) {c : ℕ} (hc : Event.opened c ∈ s.trace) :
    s.trace.count (.opened c) = 1 ∧
      s.trace.count (.ended c) = if s.opened = true ∧ c = s.connectionSeq then 0 else 1 := by
  have hopened := List.count_pos_iff.mpr hc
  obtain ⟨hle,hle'⟩ := h.once c
  refine ⟨by omega,?_⟩
  split
  · rename_i hcur
    rw [List.count_eq_zero]
    intro hmem
    exact absurd (h.endedLt c hmem) (by rw [hcur.2]; exact lt_irrefl _)
  · rename_i hcur
    have hended := List.count_pos_iff.mpr ((h.lost c hc).resolve_left hcur)
    omega

/-- The life cycle of the device along every run in which no call of the port is aborted. -/
theorem device_life_cycle (cfg : Config) (ops : List StepOp) (hops : ∀ op ∈ ops, op.Unaborted) :
    ((init.run cfg ops).stopping = false →
      ((init.run cfg ops).opened = true ↔
        (init.run cfg ops).state = .connected ∧ (init.run cfg ops).portOpen = true) ∧
      ((init.run cfg ops).state = .connecting → (init.run cfg ops).armedRetries = 1) ∧
      ((init.run cfg ops).state = .error ∨ (init.run cfg ops).state = .closed →
        (init.run cfg ops).armedRetries = 0 ∧
        ∀ more, StepOp.start ∉ more →
          ((init.run cfg ops).run cfg more).portOpen = false ∧
          ((init.run cfg ops).run cfg more).openCalls = (init.run cfg ops).openCalls)) ∧
    (∀ c, Event.opened c ∈ (init.run cfg ops).trace →
      (init.run cfg ops).trace.count (.opened c) = 1 ∧
      (init.run cfg ops).trace.count (.ended c) =
        if (init.run cfg ops).opened = true ∧ c = (init.run cfg ops).connectionSeq then 0 else 1) ∧
    ∀ c batch, Event.asyncWrite c batch ∈ (init.run cfg ops).trace → ∀ item ∈ batch, item.connection = c := by
  have hinv : (init.run cfg ops).Inv := Inv.init.run hops
  generalize init.run cfg ops = s at hinv ⊢
  refine ⟨fun hs => ?_,fun c hc => hinv.told.connections hc,hinv.told.sent⟩
  obtain ⟨hphase,hfree⟩ := hinv.phase hs
  refine ⟨hphase.opened_iff,hphase.armed,fun hstate => ?_⟩
  have hshut := hphase.shut hinv.told (hfree hstate) hstate
  refine ⟨hshut.armedRetries,fun more hmore => ?_⟩
  have hlater : (s.run cfg more).Shut ∧ Silent s (s.run cfg more) := hshut.run hmore
  exact ⟨hlater.1.portOpen,hlater.2.openCalls⟩

/-- A start whose call to open the device fails with the code given. -/
def refusedStart (ec : ErrorCode) : List StepOp :=
  [.start,.handler { Script.none with opens := { OpenReport.ok with opening := ec } }]

theorem device_life_cycle_refused :
    let s := init.run ⟨true,false,false,0⟩ (refusedStart (.other 2))
    s.state = .connecting ∧ s.armedRetries = 1 := by
  have hops : ∀ op ∈ refusedStart (.other 2), op.Unaborted := by
    simp [refusedStart, StepOp.Unaborted, OpenReport.Aborted]
  have hstate : (init.run ⟨true,false,false,0⟩ (refusedStart (.other 2))).state = .connecting := by decide
  exact ⟨hstate,((device_life_cycle ⟨true,false,false,0⟩ _ hops).1 (by decide)).2.1 hstate⟩

/-- The transport goes on in `Connecting`, and nothing opens the device again. -/
theorem aborted_open_not_retried :
    let s := init.run ⟨true,false,false,0⟩ (refusedStart .operationAborted)
    s.stopping = false ∧ s.openCalls = 1 ∧ s.state = .connecting ∧ s.armedRetries = 0 ∧ s.posted = [] ∧
      s.outstanding = [] := by
  decide

end Wirestead.Transport.Serial.State
