import Wirestead.Transport.Serial.Sound

/-! # The phases of the serial transport

Between two handlers of a run that is not stopped the device is at rest, waits for one
retry, or is connected. The handlers are followed from phase to phase.
-/
namespace Wirestead.Transport.Serial.State
open TcpClient (LinkState)
variable {cfg : Config} {s t : State}

inductive Phase (s : State) : Prop
  | rest (hs : s.state = .idle ∨ s.state = .closed ∨ s.state = .error) (ho : s.opened = false)
      (hp : s.portOpen = false) (hr : s.armedRetries = 0) (hq : s.tx = [] ∧ s.pending = [])
  | retrying (hs : s.state = .connecting) (ho : s.opened = false) (hp : s.portOpen = false) (hr : s.armedRetries = 1)
      (hq : s.tx = [] ∧ s.pending = [])
  | up (hs : s.state = .connected) (ho : s.opened = true) (hp : s.portOpen = true) (hr : s.armedRetries = 0)
      (hq : ∀ item ∈ s.tx ++ s.pending, item.connection = s.connectionSeq)

/-- What holds between two handlers, once the start handler has run. -/
structure Settled (s : State) : Prop where
  sound : s.Sound
  free : s.Free
  phase : s.stopping = false → s.Phase

theorem Phase.transfer (h : s.Phase) (hstate : t.state = s.state) (ho : t.opened = s.opened)
    (hp : t.portOpen = s.portOpen) (hr : t.armedRetries = s.armedRetries) (htx : t.tx = s.tx)
    (hpending : t.pending = s.pending) (hseq : t.connectionSeq = s.connectionSeq) : t.Phase := by
  cases h with
  | rest hs ho' hp' hr' hq =>
    exact .rest (by rw [hstate]; exact hs) (ho.trans ho') (hp.trans hp') (hr.trans hr')
      ⟨htx.trans hq.1,hpending.trans hq.2⟩
  | retrying hs ho' hp' hr' hq =>
    exact .retrying (hstate.trans hs) (ho.trans ho') (hp.trans hp') (hr.trans hr')
      ⟨htx.trans hq.1,hpending.trans hq.2⟩
  | up hs ho' hp' hr' hq =>
    refine .up (hstate.trans hs) (ho.trans ho') (hp.trans hp') (hr.trans hr') ?_
    rw [htx, hpending, hseq]
    exact hq

namespace Same

theorem armedRetries (h : Same s t) : t.armedRetries = s.armedRetries := by
  unfold State.armedRetries
  rw [h.outstanding]

theorem phase (h : Same s t) (hp : s.Phase) : t.Phase :=
  hp.transfer h.state h.opened h.portOpen h.armedRetries h.tx h.pending h.connectionSeq

theorem running (h : Same s t) (ht : t.stopping = false) : s.stopping = false := by
  cases hs : s.stopping with
  | false => rfl
  | true =>
    rw [h.stopping hs] at ht
    cases ht

end Same

namespace Settled

theorem of_same (h : s.Settled) (hsound : t.Sound) (hsame : Same s t) : t.Settled :=
  ⟨hsound,hsame.free h.free,fun ht => hsame.phase (h.phase (hsame.running ht))⟩

/-- An open connection is the connected phase. -/
theorem upPhase (h : s.Settled) (hs : s.stopping = false) (ho : s.opened = true) :
    s.state = .connected ∧ s.portOpen = true ∧ s.armedRetries = 0 ∧
      ∀ item ∈ s.tx ++ s.pending, item.connection = s.connectionSeq := by
  cases h.phase hs with
  | rest _ ho' => rw [ho] at ho'; cases ho'
  | retrying _ ho' => rw [ho] at ho'; cases ho'
  | up hstate _ hp hr hq => exact ⟨hstate,hp,hr,hq⟩

theorem call (h : s.Settled) (op : CallOp) : (s.call op).Settled :=
  h.of_same (h.sound.call op).1 (h.sound.call op).2

theorem calls (h : s.Settled) (ops : List CallOp) : (s.calls ops).Settled :=
  h.of_same (h.sound.calls ops).1 (h.sound.calls ops).2

theorem stop (h : s.Settled) : s.stop.Settled := h.of_same h.sound.stop.1 h.sound.stop.2

end Settled

section Armed

theorem armedRetries_cancelWhere_retry (s : State) : (s.cancelWhere onRetryTimer).armedRetries = 0 := by
  unfold State.armedRetries State.cancelWhere
  rw [List.countP_eq_zero]
  intro o hmem
  obtain ⟨o',-,rfl⟩ := List.mem_map.mp hmem
  split
  · simp
  · rename_i hp
    simp [hp]

theorem armedRetries_cancelWhere {p : Operation → Bool} (hp : p .retry = false) (s : State) :
    (s.cancelWhere p).armedRetries = s.armedRetries := by
  unfold State.armedRetries State.cancelWhere
  rw [List.countP_map]
  congr 1
  funext o
  simp only [Function.comp_apply]
  split
  · rename_i ho
    cases hop : o.operation with
    | retry => rw [hop, hp] at ho; cases ho
    | read connection => simp [onRetryTimer]
    | write connection batch bytes => simp [onRetryTimer]
    | rxIdle connection arm => simp [onRetryTimer]
  · rfl

theorem armedRetries_startOperation (s : State) (operation : Operation) :
    (s.startOperation operation).armedRetries = s.armedRetries + if onRetryTimer operation then 1 else 0 := by
  unfold State.armedRetries State.startOperation
  rw [List.countP_append]
  cases operation <;> rfl

theorem armedRetries_closePort (s : State) : s.closePort.armedRetries = s.armedRetries := by
  have h1 := armedRetries_cancelWhere (p := onPort) rfl (s.cancelWhere onRxIdleTimer)
  exact h1.trans (armedRetries_cancelWhere rfl s)

theorem armedRetries_markDisconnected (s : State) : s.markDisconnected.armedRetries = s.armedRetries := by
  unfold State.markDisconnected
  split <;> rfl

theorem armedRetries_release (s : State) : s.release.armedRetries = 0 := by
  have h1 := armedRetries_closePort (s.cancelWhere onRetryTimer).markDisconnected.discardConnectionWrites
  have h2 := armedRetries_markDisconnected (s.cancelWhere onRetryTimer)
  exact (h1.trans h2).trans (armedRetries_cancelWhere_retry s)

end Armed

/-- A connection that is torn down, up to its new state. -/
structure Down (s t : State) : Prop where
  sound : t.Sound
  free : t.Free
  opened : t.opened = false
  portOpen : t.portOpen = false
  empty : t.tx = [] ∧ t.pending = []
  armedRetries : t.armedRetries = s.armedRetries

theorem Sound.closePort (h : s.Sound) : s.closePort.Sound := { (h.cancelWhere onRxIdleTimer).cancelWhere onPort with }

@[simp] theorem closePort_opened (s : State) : s.closePort.opened = s.opened := rfl

@[simp] theorem discardConnectionWrites_opened (s : State) : s.discardConnectionWrites.opened = s.opened := rfl

theorem closePort_free (h : s.Free) : s.closePort.Free := h

theorem markDisconnected_free (h : s.Free) : s.markDisconnected.Free := by
  unfold State.markDisconnected
  split <;> exact h

theorem Sound.tearDown (h : s.Sound) (hf : s.Free) :
    Down s s.markDisconnected.discardConnectionWrites.closePort := by
  have hlost := h.markDisconnected
  have hdiscard : s.markDisconnected.discardConnectionWrites.Sound := { hlost.1 with }
  have hfree : s.markDisconnected.discardConnectionWrites.Free := markDisconnected_free hf
  have hopened : s.markDisconnected.discardConnectionWrites.closePort.opened = false := by
    rw [closePort_opened, discardConnectionWrites_opened]
    exact hlost.2
  have harmed : s.markDisconnected.discardConnectionWrites.armedRetries = s.armedRetries :=
    armedRetries_markDisconnected s
  exact ⟨hdiscard.closePort,closePort_free hfree,hopened,rfl,⟨rfl,rfl⟩,(armedRetries_closePort _).trans harmed⟩

/-- The user is told of a state in which nothing is open. -/
theorem Down.tell (h : Down s t) {next : LinkState} (hn : next = .closed ∨ next = .error) (hr : s.armedRetries = 0) :
    (State.notifyLost { t with state := next }).Settled := by
  have hsound : State.Sound { t with state := next } := { h.sound with }
  obtain ⟨hs,hsame⟩ := hsound.notifyLost
  refine ⟨hs,hsame.free h.free,fun _ => hsame.phase ?_⟩
  exact .rest (Or.inr hn) h.opened h.portOpen (h.armedRetries.trans hr) h.empty

theorem fail_settled (h : s.Sound) (hf : s.Free) (place : Where) (ec : ErrorCode)
    (hr : retryable cfg place = false → s.armedRetries = 0) : (s.fail cfg place ec).Settled := by
  have hrec : State.Sound { s with lastError := some (place,ec,retryable cfg place) } := { h with }
  have hdown := hrec.tearDown hf
  unfold State.fail
  dsimp only
  split
  · have hsound := hdown.sound
    obtain ⟨hs,hsame⟩ := Sound.notifyLost (s := { State.closePort (State.discardConnectionWrites (State.markDisconnected
      { s with lastError := some (place,ec,retryable cfg place) })) with state := .connecting }) { hdown.sound with }
    have hfree := hsame.free hdown.free
    have hopened := hsame.opened.trans hdown.opened
    have hport := hsame.portOpen.trans hdown.portOpen
    have hstate := hsame.state
    have hempty := And.intro hsame.tx hsame.pending
    generalize State.notifyLost _ = t at hs hfree hopened hport hstate hempty ⊢
    unfold State.scheduleRetry
    split
    · rename_i hstop
      exact ⟨hs,hfree,fun h' => by rw [hstop] at h'; cases h'⟩
    · refine ⟨(hs.cancelWhere onRetryTimer).startOperation (fun c hc => by cases hc) nofun,
        hfree,fun _ => .retrying ?_ ?_ ?_ ?_ ?_⟩
      · exact hstate
      · exact hopened
      · exact hport
      · rw [armedRetries_startOperation, armedRetries_cancelWhere_retry]
        rfl
      · exact hempty
  · rename_i hretry
    exact hdown.tell (Or.inr rfl) (hr (by simpa using hretry))

theorem setOpened_eq (h : s.opened = false) : { s with opened := false } = s := by
  cases s
  cases h
  rfl

theorem performCleanup_settled (h : s.Sound) (hf : s.Free) : s.performCleanup.Settled := by
  have hdown := (h.cancelWhere onRetryTimer).tearDown hf
  have heq := setOpened_eq hdown.opened
  have hclean : s.performCleanup = State.notifyLost
      { { State.closePort (State.discardConnectionWrites (State.markDisconnected (s.cancelWhere onRetryTimer))) with
          opened := false } with state := .closed } := rfl
  rw [hclean, heq]
  exact hdown.tell (Or.inl rfl) (armedRetries_cancelWhere_retry s)

namespace Settled

/-- Operations other than a retry wait come and go within a phase. -/
theorem reop (h : s.Settled) {ops : List Outstanding} (hsound : State.Sound { s with outstanding := ops })
    (hr : State.armedRetries { s with outstanding := ops } = s.armedRetries) :
    State.Settled { s with outstanding := ops } :=
  ⟨hsound,h.free,fun hs => (h.phase hs).transfer rfl rfl rfl hr rfl rfl rfl⟩

theorem startRead (h : s.Settled) : s.startRead.Settled := by
  unfold State.startRead
  split
  · exact h
  · rename_i hup
    obtain ⟨-,ho⟩ := not_or.mp hup
    refine h.reop (h.sound.startOperation ?_ nofun) (armedRetries_startOperation s _)
    intro c hc
    cases hc
    exact ⟨rfl,not_not.mp ho⟩

theorem resetRxIdleTimer (h : s.Settled) : (s.resetRxIdleTimer cfg).Settled := by
  unfold State.resetRxIdleTimer
  split
  · exact h
  · have hcancel : (s.cancelWhere onRxIdleTimer).Settled :=
      h.reop (h.sound.cancelWhere _) (armedRetries_cancelWhere rfl s)
    have harm : State.Settled { s.cancelWhere onRxIdleTimer with rxIdleArm := s.rxIdleArm + 1 } :=
      ⟨{ hcancel.sound with },hcancel.free,fun hs => (hcancel.phase hs).transfer rfl rfl rfl rfl rfl rfl rfl⟩
    exact harm.reop (harm.sound.startOperation (fun c hc => by cases hc) nofun) (armedRetries_startOperation _ _)

/-- The loss of the open connection. -/
theorem handleError (h : s.Settled) (ho : s.opened = true) (place : Where) (ec : ErrorCode) :
    (s.handleError cfg place ec).Settled := by
  unfold State.handleError
  split
  · exact h
  · rename_i hs
    replace hs : s.stopping = false := by simpa using hs
    obtain ⟨hstate,-,hr,-⟩ := h.upPhase hs ho
    split
    · exact h.startRead
    · split
      · rw [if_neg (by rw [hstate]; decide), if_neg (by rw [hstate]; decide)]
        exact performCleanup_settled h.sound h.free
      · exact fail_settled h.sound h.free place ec (fun _ => hr)

theorem failReceiveOn (h : s.Settled) (connection run : ℕ) : (s.failReceiveOn cfg connection run).Settled := by
  unfold State.failReceiveOn
  split
  · exact h
  · rename_i hmatch
    have ho : s.opened = true := by
      obtain ⟨-,hconn⟩ := not_or.mp hmatch
      by_contra ho
      have hnone : s.writeConnection = none := if_pos (Or.inr ho)
      rw [hnone] at hconn
      exact hconn nofun
    exact h.handleError ho _ _

theorem failReceiveHere (h : s.Settled) : (s.failReceiveHere cfg).Settled := by
  unfold State.failReceiveHere
  split
  · exact h
  · exact h.failReceiveOn _ _

theorem turn (h : s.Settled) : (s.turn cfg).Settled := by
  unfold State.turn
  split
  · exact h
  · rename_i turn rest _
    have hscript := h.sound.setScript { s.script with turns := rest } rfl
    have hbefore := (h.of_same hscript.1 hscript.2).calls turn.before
    dsimp only
    split
    · exact hbefore.failReceiveHere.calls turn.after
    · exact hbefore.calls turn.after

theorem notifyState (h : s.Settled) : (s.notifyState cfg).Settled := by
  unfold State.notifyState
  split
  · exact h
  · exact h.turn

/-- The pending buffers move up. -/
theorem moveUp (h : s.Settled) : State.Settled { s with tx := s.tx ++ s.pending, pending := [] } := by
  refine ⟨{ h.sound with },h.free,fun hs => ?_⟩
  cases h.phase hs with
  | rest hs ho hp hr hq => exact .rest hs ho hp hr (by simp [hq.1, hq.2])
  | retrying hs ho hp hr hq => exact .retrying hs ho hp hr (by simp [hq.1, hq.2])
  | up hs ho hp hr hq => exact .up hs ho hp hr (by simpa using hq)

theorem reportBackpressure (h : s.Settled) : (s.reportBackpressure cfg).Settled := by
  unfold State.reportBackpressure
  split
  · exact h
  · split
    · exact h
    · rename_i level rest _
      have hscript := h.sound.setScript { s.script with levels := rest } rfl
      have hlevel := h.of_same hscript.1 hscript.2
      dsimp only
      split
      · exact hlevel
      · exact hlevel.turn
      · have hfall : (State.turn cfg { s with script.levels := rest, tx := s.tx ++ s.pending, pending := [] }).Settled :=
          hlevel.moveUp.turn
        split
        · exact hfall.turn
        · exact hfall

/-- The queue changes within the connected phase. -/
theorem requeue (h : s.Settled) (ho : s.opened = true) (tx : List Tagged) (writing : Bool)
    (hq : s.stopping = false → ∀ item ∈ tx, item.connection = s.connectionSeq) :
    State.Settled { s with writing := writing, tx := tx } := by
  refine ⟨{ h.sound with },h.free,fun hs => ?_⟩
  obtain ⟨hstate,hp,hr,hold⟩ := h.upPhase hs ho
  refine .up hstate ho hp hr ?_
  intro item hmem
  rcases List.mem_append.mp hmem with hmem | hmem
  · exact hq hs item hmem
  · exact hold item (List.mem_append_right _ hmem)

end Settled

/-- The loss has been marked before the handler deals with it. -/
theorem handleError_lost (h : s.Sound) (hf : s.Free) (hstate : s.state = .connected) (hr : s.armedRetries = 0)
    (hs : s.stopping = false) (place : Where) (hplace : place ≠ .read) (ec : ErrorCode) :
    (s.handleError cfg place ec).Settled := by
  unfold State.handleError
  rw [if_neg (by rw [hs]; decide), if_neg (fun h' => hplace h'.2)]
  split
  · rw [if_neg (by rw [hstate]; decide), if_neg (by rw [hstate]; decide)]
    exact performCleanup_settled h hf
  · exact fail_settled h hf place ec (fun _ => hr)

theorem asyncWrite_settled (h : s.Settled) (hs : s.stopping = false) (ho : s.opened = true) {batch : List Tagged}
    (hb : ∀ item ∈ batch, item.connection = s.connectionSeq) (bytes : ℕ) : (s.asyncWrite cfg batch bytes).Settled := by
  obtain ⟨hstate,hp,hr,hq⟩ := h.upPhase hs ho
  have hrec := h.sound.recordWrite hb
  have hsettled : State.Settled { s with trace := .asyncWrite s.connectionSeq batch :: s.trace } :=
    ⟨hrec,h.free,fun _ => .up hstate ho hp hr hq⟩
  unfold State.asyncWrite
  dsimp only
  split
  · have hfree := markDisconnected_free hsettled.free
    have hmark : ∀ t : State, t.markDisconnected.state = t.state ∧ t.markDisconnected.stopping = t.stopping := by
      intro t
      unfold State.markDisconnected
      split <;> exact ⟨rfl,rfl⟩
    exact handleError_lost hrec.markDisconnected.1 hfree ((hmark _).1.trans hstate)
      ((armedRetries_markDisconnected _).trans hr) ((hmark _).2.trans hs) .write (by decide) _
  · refine hsettled.reop (hrec.startOperation ?_ ?_) (armedRetries_startOperation _ _)
    · intro c hc
      cases hc
      exact ⟨rfl,ho⟩
    · intro c batch' bytes' heq
      cases heq
      exact hb

namespace Settled

theorem doWrite (h : s.Settled) : (s.doWrite cfg).Settled := by
  unfold State.doWrite
  split
  · exact h
  · rename_i hgo
    simp only [not_or, Bool.not_eq_true, Bool.not_eq_false] at hgo
    obtain ⟨hs,ho,-,-⟩ := hgo
    obtain ⟨-,-,-,hq⟩ := h.upPhase hs ho
    have hfront : ∀ item ∈ s.tx, item.connection = s.connectionSeq :=
      fun item hmem => hq item (List.mem_append_left _ hmem)
    have hqueue := h.requeue ho s.gather.2.1 true
      (fun _ item hmem => hfront item (List.mem_of_mem_drop hmem))
    exact asyncWrite_settled hqueue hs ho (fun item hmem => hfront item (List.mem_of_mem_take hmem)) _

theorem queueThenWrite (h : s.Settled) (ho : s.opened = true) {item : Tagged} (hi : item.connection = s.connectionSeq) :
    (s.queueThenWrite cfg item).Settled := by
  have hqueue : State.Settled { s with tx := s.tx ++ [item] } := by
    refine h.requeue ho _ s.writing ?_
    intro hs item' hmem
    obtain ⟨-,-,-,hq⟩ := h.upPhase hs ho
    rcases List.mem_append.mp hmem with hmem | hmem
    · exact hq item' (List.mem_append_left _ hmem)
    · rw [List.mem_singleton.mp hmem]
      exact hi
  have hreport : (State.reportBackpressure cfg { s with tx := s.tx ++ [item] }).Settled := hqueue.reportBackpressure
  unfold State.queueThenWrite
  dsimp only
  split
  · exact hreport
  · exact hreport.doWrite

end Settled

/-- A run that was told to stop. -/
theorem settled_of_stopping (h : s.Sound) (hf : s.Free) (hs : s.stopping = true) : s.Settled :=
  ⟨h,hf,fun h' => by rw [hs] at h'; cases h'⟩

/-- The device is about to be opened. -/
structure Opening (s : State) : Prop where
  sound : s.Sound
  free : s.Free
  opened : s.opened = false
  empty : s.tx = [] ∧ s.pending = []
  armedRetries : s.armedRetries = 0

namespace Opening

theorem handleError (h : s.Opening) (hs : s.stopping = false) (place : Where) (hplace : place ≠ .read) (ec : ErrorCode)
    (hec : ec ≠ .operationAborted) : (s.handleError cfg place ec).Settled := by
  unfold State.handleError
  rw [if_neg (by rw [hs]; decide), if_neg (fun h' => hplace h'.2), if_neg hec]
  exact fail_settled h.sound h.free place _ (fun _ => h.armedRetries)

theorem serve (h : s.Opening) (hp : s.portOpen = true) : (s.serve cfg).Settled := by
  have hup : s.establish.Settled := by
    refine ⟨h.sound.establish h.opened,h.free,fun _ => .up rfl rfl hp h.armedRetries ?_⟩
    intro item hmem
    change item ∈ s.tx ++ s.pending at hmem
    rw [h.empty.1, h.empty.2] at hmem
    cases hmem
  exact hup.startRead.resetRxIdleTimer.notifyState.doWrite

/-- An attempt whose error is not an aborted call opens the device or ends in a phase. -/
theorem openAndConfigure (h : s.Opening) (hopens : ¬s.script.opens.Aborted) : (s.openAndConfigure cfg).Settled := by
  have hcall : State.Opening { s with openCalls := s.openCalls + 1 } :=
    ⟨{ h.sound with },h.free,h.opened,h.empty,h.armedRetries⟩
  have hport : State.Opening { s with openCalls := s.openCalls + 1, portOpen := true } :=
    ⟨{ h.sound with },h.free,h.opened,h.empty,h.armedRetries⟩
  unfold State.openAndConfigure
  split
  · rename_i hs
    exact settled_of_stopping h.sound h.free hs
  · rename_i hs
    replace hs : s.stopping = false := by simpa using hs
    obtain ⟨hopening,hconfiguring⟩ := not_or.mp hopens
    dsimp only
    split
    · exact hcall.handleError hs .opening nofun _ hopening
    · rename_i hopened
      replace hopened := not_not.mp hopened
      split
      · rename_i option hrefused
        exact hport.handleError hs (.configuring option) nofun _ (fun hec => hconfiguring ⟨hopened,option,hrefused,hec⟩)
      · split
        · exact hport.handleError hs .keepDtrOnClose nofun (.other 95) nofun
        · exact hport.serve rfl

/-- An aborted call leaves the attempt without a retry. -/
theorem openAndConfigure_aborted (h : s.Opening) (hs : s.stopping = false) (hstate : s.state = .connecting)
    (hopens : s.script.opens.Aborted) :
    (s.openAndConfigure cfg).state = .connecting ∧ (s.openAndConfigure cfg).armedRetries = 0 := by
  have hquiet : ∀ (t : State) (place : Where), t.stopping = false → t.state = .connecting → t.armedRetries = 0 →
      (t.handleError cfg place .operationAborted).state = .connecting ∧
        (t.handleError cfg place .operationAborted).armedRetries = 0 := by
    intro t place hstop hconnecting harmed
    unfold State.handleError
    rw [if_neg (by rw [hstop]; decide), if_neg (fun h' => by cases h'.1), if_pos rfl,
      if_neg (by rw [hconnecting]; decide), if_pos hconnecting]
    exact ⟨hconnecting,harmed⟩
  unfold State.openAndConfigure
  rw [if_neg (by rw [hs]; decide)]
  dsimp only
  rcases hopens with hopening | ⟨hopening,option,hrefused,hec⟩
  · rw [if_pos (by rw [hopening]; decide), hopening]
    exact hquiet { s with openCalls := s.openCalls + 1 } .opening hs hstate h.armedRetries
  · rw [if_neg (not_not.mpr hopening), Option.mem_def.mp hrefused]
    dsimp only
    rw [hec]
    exact hquiet { s with openCalls := s.openCalls + 1, portOpen := true } (.configuring option) hs hstate
      h.armedRetries

end Opening

/-- A callback while nothing is open. -/
theorem turn_same (h : s.Sound) (ho : s.opened = false) : (s.turn cfg).Sound ∧ Same s (s.turn cfg) := by
  have hfail : ∀ t : State, t.opened = false → t.failReceiveHere cfg = t := by
    intro t ht
    unfold State.failReceiveHere
    rw [State.writeConnection, if_pos (Or.inr (by simp [ht]))]
  unfold State.turn
  split
  · exact ⟨h,.refl s⟩
  · rename_i turn rest _
    obtain ⟨h1,hs1⟩ := h.setScript { s.script with turns := rest } rfl
    obtain ⟨h2,hs2⟩ := h1.calls turn.before
    obtain ⟨h3,hs3⟩ := h2.calls turn.after
    dsimp only
    rw [hfail _ ((hs1.trans hs2).opened.trans ho), ite_self]
    exact ⟨h3,(hs1.trans hs2).trans hs3⟩

section Handlers

theorem onRead_settled (h : s.Settled) {connection : ℕ} (hc : connection = s.connectionSeq → s.opened = true)
    (ec : ErrorCode) (n : ℕ) : (s.onRead cfg connection ec n).Settled := by
  unfold State.onRead
  split
  · exact h
  · rename_i hmatch
    obtain ⟨-,hconn⟩ := not_or.mp hmatch
    split
    · exact h.handleError (hc (not_not.mp hconn)) _ _
    · have hturn : (State.turn cfg (if n > 0 then s.resetRxIdleTimer cfg else s)).Settled := by
        split
        · exact h.resetRxIdleTimer.turn
        · exact h.turn
      dsimp only
      generalize State.turn cfg (if n > 0 then s.resetRxIdleTimer cfg else s) = t at hturn ⊢
      split
      · exact hturn.stop
      · exact hturn.startRead

theorem onWrite_settled (h : s.Settled) {connection : ℕ} (hc : connection = s.connectionSeq → s.opened = true)
    (batch : List Tagged) (bytes : ℕ) (ec : ErrorCode) (written : ℕ) :
    (s.onWrite cfg connection batch bytes ec written).Settled := by
  unfold State.onWrite
  dsimp only
  generalize (if ec = .success ∧ written < bytes then ErrorCode.other 104 else ec) = ec
  split
  · exact h
  · rename_i hconn
    have ho := hc (not_not.mp hconn)
    by_cases hec : ec ≠ .success
    · rw [if_pos hec]
      have hlost := h.sound.markDisconnected.1
      have hfree := markDisconnected_free h.free
      have hmark : s.markDisconnected.state = s.state ∧ s.markDisconnected.stopping = s.stopping := by
        unfold State.markDisconnected
        split <;> exact ⟨rfl,rfl⟩
      split
      · rename_i hs
        exact settled_of_stopping { hlost with } hfree hs
      · rename_i hs
        replace hs : s.stopping = false := by
          rw [← hmark.2]
          simpa using hs
        obtain ⟨hstate,-,hr,-⟩ := h.upPhase hs ho
        have hback : State.Sound { s.markDisconnected with tx := batch ++ s.markDisconnected.tx, writing := false } :=
          { hlost with }
        exact handleError_lost hback hfree (hmark.1.trans hstate)
          ((armedRetries_markDisconnected s).trans hr) (hmark.2.trans hs) .write (by decide) ec
    · rw [if_neg hec]
      have hidle : State.Settled { s with writing := false } := by
        refine h.requeue ho s.tx false ?_
        intro hs item hmem
        exact (h.upPhase hs ho).2.2.2 item (List.mem_append_left _ hmem)
      split
      · exact hidle
      · exact hidle.reportBackpressure.doWrite

theorem onRxIdle_settled (h : s.Settled) (connection arm : ℕ) (ec : ErrorCode) :
    (s.onRxIdle cfg connection arm ec).Settled := by
  unfold State.onRxIdle
  split
  · exact h
  · rename_i hgo
    simp only [not_or, Bool.not_eq_true, Bool.not_eq_false] at hgo
    exact h.handleError hgo.2.2.2.1 _ _

end Handlers

section Unarmed
variable (hcfg : cfg.reopenOnError = false)

theorem armedRetries_stop (s : State) : s.stop.armedRetries ≤ s.armedRetries := by
  unfold State.stop
  split
  · exact le_rfl
  · dsimp only
    split
    · unfold State.performStopCleanup
      split
      · exact le_rfl
      · dsimp only
        split
        · exact (armedRetries_release { s with stopping := true, cleanupStarted := true }).trans_le (Nat.zero_le _)
        · exact (armedRetries_release { s with stopping := true, cleanupStarted := true }).trans_le (Nat.zero_le _)
    · exact le_rfl

theorem armedRetries_calls (s : State) (ops : List CallOp) : (s.calls ops).armedRetries ≤ s.armedRetries := by
  induction ops generalizing s with
  | nil => exact le_rfl
  | cons op ops ih =>
    refine (ih (s.call op)).trans ?_
    cases op with
    | stop => exact armedRetries_stop s
    | write item =>
      unfold State.call
      dsimp only
      split <;> exact le_rfl
    | tryWrite item =>
      unfold State.call
      dsimp only
      split <;> exact le_rfl

theorem armedRetries_notifyLost (s : State) : s.notifyLost.armedRetries ≤ s.armedRetries := by
  unfold State.notifyLost State.quietTurn
  split
  · exact le_rfl
  · split
    · exact le_rfl
    · exact armedRetries_calls _ _

include hcfg

/-- Nothing arms a retry that may not be made. -/
theorem armedRetries_handleError (s : State) (place : Where) (ec : ErrorCode) :
    (s.handleError cfg place ec).armedRetries ≤ s.armedRetries := by
  have hdown : ∀ t : State, (t.markDisconnected.discardConnectionWrites.closePort).armedRetries = t.armedRetries :=
    fun t => (armedRetries_closePort _).trans (armedRetries_markDisconnected t)
  unfold State.handleError
  split
  · exact le_rfl
  · split
    · unfold State.startRead
      split
      · exact le_rfl
      · exact (armedRetries_startOperation s _).le
    · split
      · split
        · exact le_rfl
        · split
          · exact le_rfl
          · refine (armedRetries_notifyLost s.release).trans ?_
            exact ((hdown (s.cancelWhere onRetryTimer)).trans (armedRetries_cancelWhere_retry s)).trans_le
              (Nat.zero_le _)
      · unfold State.fail
        dsimp only
        rw [if_neg (by simp [retryable, hcfg])]
        refine (armedRetries_notifyLost _).trans ?_
        exact (hdown { s with lastError := some (place,ec,retryable cfg place) }).le

theorem armedRetries_turn (s : State) : (s.turn cfg).armedRetries ≤ s.armedRetries := by
  have hfail : ∀ t : State, (t.failReceiveHere cfg).armedRetries ≤ t.armedRetries := by
    intro t
    unfold State.failReceiveHere
    split
    · exact le_rfl
    · unfold State.failReceiveOn
      split
      · exact le_rfl
      · exact armedRetries_handleError hcfg t _ _
  unfold State.turn
  split
  · exact le_rfl
  · rename_i turn rest _
    have hbefore := armedRetries_calls { s with script.turns := rest } turn.before
    refine (armedRetries_calls _ _).trans ?_
    split
    · exact (hfail _).trans hbefore
    · exact hbefore

theorem armedRetries_reportBackpressure (s : State) : (s.reportBackpressure cfg).armedRetries ≤ s.armedRetries := by
  unfold State.reportBackpressure
  split
  · exact le_rfl
  · split
    · exact le_rfl
    · rename_i level rest _
      dsimp only
      split
      · exact le_rfl
      · exact armedRetries_turn hcfg { s with script.levels := rest }
      · have hfall := armedRetries_turn hcfg
          { s with script.levels := rest, tx := s.tx ++ s.pending, pending := [] }
        split
        · exact (armedRetries_turn hcfg _).trans hfall
        · exact hfall

end Unarmed

/-- The fatal overflow ends the connection, also where a callback has ended it before. -/
theorem overflow_settled (h : s.Settled) (hr : cfg.reopenOnError = false → s.armedRetries = 0) :
    (State.handleError cfg (State.notifyLost
      { s.markDisconnected.discardConnectionWrites with state := .error })
      .writeQueueOverflow (.other 105)).Settled := by
  have hlost := h.sound.markDisconnected
  have hsound : State.Sound { s.markDisconnected.discardConnectionWrites with state := .error } := { hlost.1 with }
  have hfree := markDisconnected_free h.free
  obtain ⟨hs1,hsame⟩ := hsound.notifyLost
  unfold State.handleError
  split
  · rename_i hs
    exact settled_of_stopping hs1 (hsame.free hfree) hs
  · rename_i hs
    rw [if_neg (fun h' => by cases h'.1), if_neg nofun]
    refine fail_settled hs1 (hsame.free hfree) _ _ ?_
    intro hretry
    refine hsame.armedRetries.trans ((armedRetries_markDisconnected s).trans (hr ?_))
    simpa [retryable] using hretry

theorem onPosted_settled (h : s.Settled) {item : Tagged} (hi : item.connection = s.connectionSeq → s.opened = true)
    (generation : ℕ) : (s.onPosted cfg item generation).Settled := by
  unfold State.onPosted
  split
  · exact h
  · rename_i hmatch
    obtain ⟨-,hconn⟩ := not_or.mp hmatch
    replace hconn := not_not.mp hconn
    have ho := hi hconn
    unfold State.routeEnqueuedBuffer
    split
    · exact h
    · rename_i hs
      replace hs : s.stopping = false := by simpa using hs
      obtain ⟨hstate,hp,hr,hq⟩ := h.upPhase hs ho
      split
      · exact h
      · refine overflow_settled h.reportBackpressure (fun hcfg => ?_)
        exact Nat.le_zero.mp ((armedRetries_reportBackpressure hcfg s).trans hr.le)
      · refine ⟨{ h.sound with },h.free,fun _ => .up hstate ho hp hr ?_⟩
        intro item' hmem
        rcases List.mem_append.mp hmem with hmem | hmem
        · exact hq item' (List.mem_append_left _ hmem)
        · rcases List.mem_append.mp hmem with hmem | hmem
          · exact hq item' (List.mem_append_right _ hmem)
          · rw [List.mem_singleton.mp hmem]
            exact hconn
      · exact h.queueThenWrite ho hconn

theorem onTryPosted_settled (h : s.Settled) {item : Tagged} (hi : item.connection = s.connectionSeq → s.opened = true)
    (generation : ℕ) : (s.onTryPosted cfg item generation).Settled := by
  unfold State.onTryPosted
  split
  · exact h
  · rename_i hmatch
    obtain ⟨-,hconn⟩ := not_or.mp hmatch
    split
    · exact h
    · exact h.queueThenWrite (hi (not_not.mp hconn)) (not_not.mp hconn)

end Wirestead.Transport.Serial.State
