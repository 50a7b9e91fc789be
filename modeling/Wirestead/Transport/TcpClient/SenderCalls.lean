import Wirestead.Transport.TcpClient.Admission
import Wirestead.Transport.TcpClient.Lifecycle

/-! # Calls and the lifecycle as moves of the sender

While the client is started, a call from outside makes the same moves whatever the
running handler has in hand. The handlers of the lifecycle have nothing in hand.
-/
namespace Wirestead.Transport.TcpClient
open Diagnostics Sizes

/-- No allocation of the call fails once its bytes are reserved. -/
def CallerOp.faultless : CallerOp → Bool
  | .write kind _ _ faults =>
    !faults.strike && match kind with
      | .copy _ pooled _ => !pooled.strike
      | _ => true
  | .tryWrite _ _ faults => !faults.strike
  | _ => true

def Script.faultless (script : Script) : Bool := script.callers.all (fun ops => ops.all CallerOp.faultless)

/-- The client was started, and without leaks no call to come fails in the wrong place. -/
structure Sender.Ready {N : Type*} (allow : Flaw → Prop) (a : Sender N) : Prop where
  started : a.currentSeq ≠ 0
  faultless : allow .leak ∨ a.script.faultless = true

namespace State
variable {N : Type*} [CommRing N] (cfg : Config) (allow : Flaw → Prop)

/-- A part of a handler that makes moves within its run. -/
structure Reaches (h : Hand) (s : State N) (h' : Hand) (t : State N) : Prop where
  moves : TcpClient.Moves cfg allow (h,s.sender) (h',t.sender)
  currentSeq : t.currentSeq = s.currentSeq
  ready : t.sender.Ready allow

/-- Calls make moves and leave the writer's flag and the pressure as they are. -/
structure Turned (h : Hand) (s t : State N) : Prop extends Reaches cfg allow h s h t where
  writing : t.writing = s.writing
  backpressureActive : t.backpressureActive = s.backpressureActive

/-- A part of a handler of the lifecycle. -/
def Runs (s t : State N) : Prop := s.sender.Ready allow → Reaches cfg allow .empty s .empty t

variable {cfg allow} {h h' h'' : Hand} {s t u : State N}

namespace Reaches

theorem refl (hs : s.sender.Ready allow) : Reaches cfg allow h s h s := ⟨.refl,rfl,hs⟩

theorem trans (hst : Reaches cfg allow h s h' t) (htu : Reaches cfg allow h' t h'' u) :
    Reaches cfg allow h s h'' u :=
  ⟨hst.moves.trans htu.moves,htu.currentSeq.trans hst.currentSeq,htu.ready⟩

/-- One move that stays in the run. -/
theorem single (hs : s.sender.Ready allow) (hm : Move cfg allow (h,s.sender) (h',t.sender))
    (hseq : t.currentSeq = s.currentSeq) (hscript : t.script = s.script) :
    Reaches cfg allow h s h' t := by
  refine ⟨.single hm,hseq,fun h0 => hs.started ?_,?_⟩
  · exact hseq.symm.trans h0
  · rw [show t.sender.script = s.sender.script from hscript]
    exact hs.faultless

end Reaches

namespace Turned

theorem refl (hs : s.sender.Ready allow) : Turned cfg allow h s s := ⟨.refl hs,rfl,rfl⟩

theorem trans (hst : Turned cfg allow h s t) (htu : Turned cfg allow h t u) : Turned cfg allow h s u :=
  ⟨hst.toReaches.trans htu.toReaches,htu.writing.trans hst.writing,
    htu.backpressureActive.trans hst.backpressureActive⟩

end Turned

section Submission
variable {data : List UInt8}

/-- A rolled back admission leaves the live requests as they were. -/
theorem relabels_rollback (c : Ledger N) (bytes : ℕ) :
    Sender.Relabels c ((c.admitRequest bytes none).1.rollback (c.nextId + 1)) := by
  intro hv
  obtain ⟨hv',-,hnext,hlive⟩ := hv.admitRequest_live bytes none
  obtain ⟨hret,hroll⟩ := hv'.rollback_live (c.nextId + 1)
  refine ⟨hret.valid,?_,fun id => ?_⟩
  · rw [hret.nextId, hnext]
    exact Nat.le_succ _
  · rw [Bool.eq_iff_iff, hroll, hlive]
    constructor
    · rintro ⟨hc | hc,hne⟩
      · exact hc
      · exact absurd hc hne
    · intro hc
      refine ⟨.inl hc,fun heq => ?_⟩
      have hle : id ≤ c.nextId := hv.live_le hc
      omega

theorem submit_frame (t : State N) (data : List UInt8) (faults : WriteFaults)
    (handler : TrackedBuffer → Handler) :
    (t.submit data faults handler).1.currentSeq = t.currentSeq ∧
    (t.submit data faults handler).1.script = t.script ∧
    (t.submit data faults handler).1.writing = t.writing ∧
    (t.submit data faults handler).1.backpressureActive = t.backpressureActive := by
  unfold submit
  split_ifs <;> exact ⟨rfl,rfl,rfl,rfl⟩

/-- After the reservation a submission is accepted or leaks. -/
theorem submit_move {counters : Counters} {faults : WriteFaults} {handler : TrackedBuffer → Handler}
    (hf : allow .leak ∨ faults.strike = false)
    (haccept : Move cfg allow (h,s.sender)
      (h,({ s.sender with counters := counters } : Sender N).accept data handler))
    (hpending : counters.pendingBytes = s.counters.pendingBytes)
    (hqueue : s.counters.queueBytes ≤ counters.queueBytes)
    (hinflight : s.counters.inflightBytes ≤ counters.inflightBytes) (htotal : counters.total ≤ cfg.bpLimit) :
    Move cfg allow (h,s.sender)
      (h,(({ s with counters := counters } : State N).submit data faults handler).1.sender) := by
  have hleak : ∀ ledger, allow .leak → Sender.Relabels s.ledger ledger →
      Move cfg allow (h,s.sender) (h,{ s.sender with counters := counters, ledger := ledger }) :=
    fun ledger ha hl => .leak h s.sender counters ledger ha hpending hqueue hinflight htotal hl
  have hstrike : allow .leak ∨ faults.ledger = false ∧ faults.post = false := by
    refine hf.imp id (fun hs => ?_)
    unfold WriteFaults.strike at hs
    simpa using hs
  unfold submit
  by_cases hl : faults.ledger
  · rw [if_pos hl]
    refine hleak s.ledger (hstrike.resolve_right (by simp [hl])) (fun hv => ⟨hv,le_rfl,fun _ => rfl⟩)
  · rw [if_neg hl]
    dsimp only
    by_cases hp : faults.post
    · rw [if_pos hp]
      exact hleak _ (hstrike.resolve_right (by simp [hp])) (relabels_rollback s.ledger data.length)
    · rw [if_neg hp]
      exact haccept

omit [CommRing N] in
theorem Admits.sender (ha : s.Admits data) : s.sender.Admits data :=
  ⟨⟨ha.stopRequested,ha.state⟩,ha.connected,ha.started,ha.positive⟩

theorem submitPlain_turned (hs : s.sender.Ready allow) (ha : s.sender.Admits data) {faults : WriteFaults}
    (hf : allow .leak ∨ faults.strike = false) :
    Turned cfg allow h s (s.submitPlain cfg data faults).1 := by
  rw [submitPlain_eq]
  split
  · rename_i hr
    obtain ⟨-,htotal⟩ := of_decide_eq_true hr
    have hm : Move cfg allow (h,s.sender) (h,_) := .plain h s.sender data ha htotal
    obtain ⟨hseq,hscript,hwriting,hbp⟩ := submit_frame ({ s with counters := { s.counters with
      inflightBytes := s.counters.inflightBytes + data.length } } : State N) data faults
      (fun item => .write item s.currentSeq s.connectionSeq)
    refine ⟨.single hs (submit_move hf hm rfl le_rfl (Nat.le_add_right _ _) ?_) hseq hscript,hwriting,hbp⟩
    unfold Counters.total at htotal ⊢
    dsimp only
    omega
  · exact .refl hs

theorem submitTry_turned (hs : s.sender.Ready allow) (ha : s.sender.Admits data) {faults : WriteFaults}
    (hf : allow .leak ∨ faults.strike = false) :
    Turned cfg allow h s (s.submitTry cfg data faults).1 := by
  rw [submitTry_eq]
  split
  · rename_i hr
    obtain ⟨-,hbp,-,htotal⟩ := of_decide_eq_true hr
    have hm : Move cfg allow (h,s.sender) (h,_) := .tryPlain h s.sender data ha hbp htotal
    obtain ⟨hseq,hscript,hwriting,hbp'⟩ := submit_frame ({ s with counters := { s.counters with
      queueBytes := s.counters.queueBytes + data.length } } : State N) data faults
      (fun item => .tryWrite item s.currentSeq s.connectionSeq)
    refine ⟨.single hs (submit_move hf hm rfl (Nat.le_add_right _ _) le_rfl ?_) hseq hscript,hwriting,hbp'⟩
    unfold Counters.total at htotal ⊢
    dsimp only
    omega
  · exact .refl hs

end Submission

section Calls

/-- The pooled attempt of a copy leaves the client able to admit the second one. -/
theorem submitPlain_admits {data : List UInt8} (ha : s.sender.Admits data) (faults : WriteFaults) :
    (s.submitPlain cfg data faults).1.sender.Admits data := by
  have hsubmit : ∀ (t : State N) handler, t.sender.Admits data →
      (t.submit data faults handler).1.sender.Admits data := by
    intro t handler ht
    unfold submit
    split_ifs <;> exact ⟨ht.running,ht.connected,ht.started,ht.positive⟩
  unfold submitPlain
  split
  · exact hsubmit _ _ ⟨ha.running,ha.connected,ha.started,ha.positive⟩
  · exact ha

theorem stop_turned (hs : s.sender.Ready allow) : Turned cfg allow h s s.stop := by
  unfold stop
  split
  · exact .refl hs
  dsimp only
  split
  · rename_i h0
    exact absurd h0 hs.started
  · have hstop : Move cfg allow (h,s.sender) (h,_) := .stop h s.sender
    have hpost : Move cfg allow (h,({ s.sender with stopRequested := true, stopping := true
                                                    ledger := s.ledger.endAll .explicitStop } : Sender N)) (h,_) :=
      .post h _ .stopCleanup rfl rfl
    exact ⟨⟨.tail (.single hstop) hpost,rfl,hs.started,hs.faultless⟩,rfl,rfl⟩

theorem callerStep_turned (hs : s.sender.Ready allow) {op : CallerOp}
    (hf : allow .leak ∨ op.faultless = true) : Turned cfg allow h s (s.callerStep cfg op) := by
  cases op with
  | write kind data expectedConnection faults =>
    have hfaults : ∀ f, f = faults ∨ (∃ poolFails copyFails, kind = .copy poolFails f copyFails) →
        allow .leak ∨ f.strike = false := by
      intro f hk
      refine hf.imp id (fun hok => ?_)
      unfold CallerOp.faultless at hok
      rcases hk with rfl | ⟨poolFails,copyFails,rfl⟩ <;> simp_all
    refine (write_respects (P := fun t => t.sender.Ready allow ∧ t.sender.Admits data)
      (R := fun t u => t.sender.Ready allow → Turned cfg allow h t u) (fun _ ht => .refl ht)
      (fun htu huv ht => (htu ht).trans (huv (htu ht).ready)) (fun ha => ⟨hs,ha.sender⟩) kind faults ?_) hs
    rintro t f hk ⟨ht,ha⟩
    have hplain : Turned cfg allow h t (t.submitPlain cfg data f).1 := submitPlain_turned ht ha (hfaults f hk)
    exact ⟨⟨hplain.ready,submitPlain_admits ha f⟩,fun _ => hplain⟩
  | tryWrite kind data faults =>
    have hfaults : allow .leak ∨ faults.strike = false := by
      refine hf.imp id (fun hok => ?_)
      unfold CallerOp.faultless at hok
      simpa using hok
    refine (tryWrite_respects (R := fun t u => t.sender.Ready allow → Turned cfg allow h t u)
      (fun _ ht => .refl ht) kind faults fun ha ht => ?_) hs
    exact submitTry_turned ht ha.sender hfaults
  | stop => exact stop_turned hs
  | resetStats =>
    refine ⟨.single hs (.relabel h s.sender s.ledger.reset fun hv => ?_) rfl rfl,rfl,rfl⟩
    exact ⟨hv.retires_reset.valid,le_rfl,fun _ => rfl⟩
  | failReceive =>
    change Turned cfg allow h s s.failReceive
    unfold failReceive
    split
    · exact .refl hs
    · exact ⟨.single hs (.post h s.sender _ rfl rfl) rfl rfl,rfl,rfl⟩
  | cancelWriteWaits => exact ⟨⟨.refl,rfl,hs⟩,rfl,rfl⟩
  | configure settings => exact ⟨⟨.refl,rfl,hs⟩,rfl,rfl⟩

theorem callerRun_turned (ops : List CallerOp) (hs : s.sender.Ready allow)
    (hf : allow .leak ∨ ops.all CallerOp.faultless = true) : Turned cfg allow h s (s.callerRun cfg ops) := by
  induction ops generalizing s with
  | nil => exact .refl hs
  | cons op ops ih =>
    have hboth : (allow .leak ∨ op.faultless = true) ∧ (allow .leak ∨ ops.all CallerOp.faultless = true) := by
      rw [List.all_cons, Bool.and_eq_true] at hf
      exact ⟨hf.imp id And.left,hf.imp id And.right⟩
    have hop : Turned cfg allow h s (s.callerStep cfg op) := callerStep_turned hs hboth.1
    exact hop.trans (ih hop.ready hboth.2)

theorem giveWay_turned (hs : s.sender.Ready allow) : Turned cfg allow h s (s.giveWay cfg) := by
  unfold giveWay
  split
  · exact .refl hs
  · rename_i ops rest hcallers
    have hf := hs.faultless
    unfold Script.faultless at hf
    rw [show s.sender.script.callers = ops :: rest from hcallers, List.all_cons, Bool.and_eq_true] at hf
    have hturn : Turned cfg allow h s { s with script.callers := rest } :=
      ⟨⟨.single (.turn h s.sender _),rfl,hs.started,hf.imp id And.right⟩,rfl,rfl⟩
    exact hturn.trans (callerRun_turned ops hturn.ready (hf.imp id And.left))

end Calls

section Lifecycle

theorem flight?_eq_none {operation : Operation} (h : operation.batch? = none) : operation.flight? = none := by
  cases operation with
  | write seq connection b => cases h
  | _ => rfl

omit [CommRing N] in
theorem writes_cancelWhere (s : State N) (p : Operation → Bool) :
    writes (s.cancelWhere p).outstanding = writes s.outstanding := by
  unfold cancelWhere writes
  rw [List.filterMap_map]
  congr 1
  funext o
  simp only [Function.comp_apply]
  split <;> rfl

/-- Moves of a handler that has nothing in hand and does not give way. -/
structure Calm (cfg : Config) (allow : Flaw → Prop) (s t : State N) : Prop where
  moves : TcpClient.Moves cfg allow (.empty,s.sender) (.empty,t.sender)
  currentSeq : t.sender.currentSeq = s.sender.currentSeq
  script : t.sender.script = s.sender.script

theorem Calm.trans (hst : Calm cfg allow s t) (htu : Calm cfg allow t u) : Calm cfg allow s u :=
  ⟨hst.moves.trans htu.moves,htu.currentSeq.trans hst.currentSeq,htu.script.trans hst.script⟩

theorem Calm.single (hm : Move cfg allow (.empty,s.sender) (.empty,t.sender))
    (hseq : t.sender.currentSeq = s.sender.currentSeq) (hscript : t.sender.script = s.sender.script) :
    Calm cfg allow s t := ⟨.single hm,hseq,hscript⟩

theorem calm_lifecycle : Lifecycle (allow .strand) (fun _ => True) (Calm cfg allow : State N → State N → Prop) where
  refl _ := ⟨.refl,rfl,rfl⟩
  trans := .trans
  set {s t} ht := by
    constructor
    · rw [ht]
      exact .refl
    · rw [ht]
    · rw [ht]
  cancelWhere s p := .single (.operate s.sender _ (s.writes_cancelWhere p)) rfl rfl
  enter {s t} next hc ht := by
    apply Calm.single <;> rw [ht]
    exact .enter s.sender next hc
  lose {s t} ht := by
    apply Calm.single <;> rw [ht]
    · exact .lose s.sender
    · exact s.sender.lose_currentSeq
    · exact s.sender.lose_script
  startOperation s operation ho _ := by
    refine .single (.operate s.sender _ ?_) rfl rfl
    simp [writes, State.startOperation, sender, flight?_eq_none ho]
  post s _ _ := .single (.post .empty s.sender _ rfl rfl) rfl rfl
  connect {s t} hstop ht := by
    apply Calm.single <;> rw [ht]
    exact .connect s.sender hstop
  strand ha s := by
    apply Calm.single <;> rw [markDisconnected_sender]
    · exact .strand s.sender ha
    · exact s.sender.disconnect_currentSeq
    · exact s.sender.disconnect_script
  purge {s t} hc ht := by
    apply Calm.single <;> rw [ht]
    · exact .purge s.sender hc
    · rfl
    · rfl
  rest {s t} hc ht := by
    apply Calm.single <;> rw [ht]
    exact .rest s.sender hc

theorem Calm.runs (hc : Calm cfg allow s t) : Runs cfg allow s t := by
  intro hs
  refine ⟨hc.moves,hc.currentSeq,?_,?_⟩
  · rw [hc.currentSeq]
    exact hs.started
  · rw [hc.script]
    exact hs.faultless

theorem runs_lifecycle : Lifecycle (allow .strand) (fun _ => True) (Runs cfg allow : State N → State N → Prop) :=
  calm_lifecycle.mono Calm.runs (fun hst htu hs => (hst hs).trans (htu (hst hs).ready))

theorem giveWay_runs (s : State N) : Runs cfg allow s (s.giveWay cfg) :=
  fun hs => (giveWay_turned hs).toReaches

end Lifecycle
end State
end Wirestead.Transport.TcpClient
