import Wirestead.Words.Fields

/-! # The outputs of the logger

The distributing sink holds the sinks that receive each line; removing takes away one
occurrence at most. Sinks are named by the order of their creation. The opening of a file
may fail at any time.
-/
namespace Wirestead.Diagnostics.Logger
open Words

/-- The bits of `outputs_`. -/
structure Outputs where
  console : Bool
  file : Bool
  callback : Bool
  deriving DecidableEq, Repr

structure LogRotationConfig where
  maxFileSizeBytes : ℕ := 10 * 1024 * 1024
  maxFiles : ℕ := 10
  enableCompression : Bool := false
  filePattern : List UInt8 := ascii "{name}.{index}.log"
  deriving DecidableEq

/-- A console sink and its filter are created and dropped together; the filter is what
gets attached. -/
structure Impl where
  outputs : Outputs
  distSink : Multiset ℕ
  consoleStdout : Option ℕ
  consoleStderr : Option ℕ
  fileSink : Option ℕ
  callbackSink : Option ℕ
  callback : Option ℕ
  currentLogFile : List UInt8
  rotationConfig : LogRotationConfig
  lastError : List UInt8
  next : ℕ

inductive Outcome
  | returned (ok : Bool)
  | thrown
  deriving DecidableEq, Repr

/-- The calls with what the opening of a file comes to: `none`, or the text of the error. -/
inductive Call
  | setConsoleOutput (enable : Bool)
  | trySetFileOutputWithRotation (filename : List UInt8) (config : LogRotationConfig) (failure : Option (List UInt8))
  | setCallback (callback : Option ℕ)
  | setOutputs (outputs : Outputs) (failure : Option (List UInt8))

def addSink (sink : Option ℕ) (sinks : Multiset ℕ) : Multiset ℕ := sink.toList + sinks

/-- A pointer that is not set removes nothing. -/
def removeSink (sink : Option ℕ) (sinks : Multiset ℕ) : Multiset ℕ := sink.elim sinks sinks.erase

theorem removeSink_eq {sink : Option ℕ} {sinks others : Multiset ℕ} (h : sinks = sink.toList + others) :
    removeSink sink sinks = others := by
  subst h
  cases sink with
  | none => simp [removeSink]
  | some id => simp [removeSink]

theorem removeSink_of_notMem {sink : Option ℕ} {sinks : Multiset ℕ} (h : ∀ id, sink = some id → id ∉ sinks) :
    removeSink sink sinks = sinks := by
  cases sink with
  | none => rfl
  | some id => exact Multiset.erase_of_notMem (h id rfl)

/-- Names of different sinks, all of them given out before. -/
structure Distinct (sinks : Multiset ℕ) (next : ℕ) : Prop where
  nodup : sinks.Nodup
  lt : ∀ id ∈ sinks, id < next

theorem Distinct.mono {sinks sinks' : Multiset ℕ} {next next' : ℕ} (h : Distinct sinks next) (hle : sinks' ≤ sinks)
    (hn : next ≤ next') : Distinct sinks' next' :=
  ⟨Multiset.nodup_of_le hle h.nodup,fun id hid => (h.lt id (Multiset.mem_of_le hle hid)).trans_le hn⟩

theorem Distinct.cons {sinks : Multiset ℕ} {next : ℕ} (h : Distinct sinks next) :
    Distinct (next ::ₘ sinks) (next + 1) := by
  refine ⟨Multiset.nodup_cons.mpr ⟨fun hmem => lt_irrefl _ (h.lt next hmem),h.nodup⟩,fun id hid => ?_⟩
  rcases Multiset.mem_cons.mp hid with rfl | hid
  · exact Nat.lt_succ_self _
  · exact (h.lt id hid).trans (Nat.lt_succ_self _)

namespace Impl
variable (s : Impl)

def ensureStdout : Impl :=
  if s.consoleStdout.isSome then s else { s with consoleStdout := some s.next, next := s.next + 1 }

def ensureStderr : Impl :=
  if s.consoleStderr.isSome then s else { s with consoleStderr := some s.next, next := s.next + 1 }

def addConsoleSinks : Impl :=
  let s := s.ensureStdout.ensureStderr
  let sinks := removeSink s.consoleStderr (removeSink s.consoleStdout s.distSink)
  { s with distSink := addSink s.consoleStderr (addSink s.consoleStdout sinks) }

def removeConsoleSinks : Impl :=
  { s with distSink := removeSink s.consoleStderr (removeSink s.consoleStdout s.distSink)
           consoleStdout := none
           consoleStderr := none }

def removeFileSink : Impl := { s with distSink := removeSink s.fileSink s.distSink, fileSink := none }

def openFileSink : Impl := { s with fileSink := some s.next, next := s.next + 1 }

def setConsoleOutput (enable : Bool) : Impl × Outcome :=
  let s := if enable then s.addConsoleSinks else s.removeConsoleSinks
  ({ s with outputs.console := enable, lastError := [] },.returned true)

def trySetFileOutputWithRotation (filename : List UInt8) (config : LogRotationConfig)
    (failure : Option (List UInt8)) : Impl × Outcome :=
  if filename = [] then
    ({ s.removeFileSink with currentLogFile := [], outputs.file := false, lastError := [] },.returned true)
  else if config.enableCompression then
    ({ s with lastError := ascii "Log compression is not supported by the current rotating file sink" },
      .returned false)
  else if config.filePattern ≠ ({} : LogRotationConfig).filePattern then
    ({ s with
       lastError := ascii "Custom log rotation file_pattern is not supported by the current rotating file sink" },
      .returned false)
  else
    let s := { s with distSink := removeSink s.fileSink s.distSink, rotationConfig := config
                      currentLogFile := filename }
    match failure with
    | some what =>
      ({ s with lastError := ascii "Failed to open log file: " ++ filename ++ ascii " (" ++ what ++ ascii ")"
                fileSink := none, currentLogFile := [], outputs.file := false },.returned false)
    | none =>
      let s := s.openFileSink
      ({ s with distSink := addSink s.fileSink s.distSink, outputs.file := true, lastError := [] },.returned true)

def setCallback (callback : Option ℕ) : Impl × Outcome :=
  if callback.isNone then
    ({ s with distSink := removeSink s.callbackSink s.distSink, callbackSink := none, callback := none
              outputs.callback := false, lastError := [] },.returned true)
  else
    let s : Impl :=
      if s.callbackSink.isSome then
        { s with callback := callback
                 distSink := addSink s.callbackSink (removeSink s.callbackSink s.distSink) }
      else
        { s with callback := callback, callbackSink := some s.next, next := s.next + 1
                 distSink := addSink (some s.next) s.distSink }
    ({ s with outputs.callback := true, lastError := [] },.returned true)

/-- The file part of `set_outputs`; there is no state when the opening throws. -/
def reconcileFile (outputs : Outputs) (failure : Option (List UInt8)) : Option Impl :=
  if outputs.file then
    if s.fileSink.isNone ∧ s.currentLogFile ≠ [] then
      if failure.isSome then none
      else
        let s := s.openFileSink
        some { s with distSink := addSink s.fileSink (removeSink s.fileSink s.distSink) }
    else some { s with distSink := addSink s.fileSink (removeSink s.fileSink s.distSink) }
  else some s.removeFileSink

def reconcileCallback (outputs : Outputs) : Impl :=
  let sinks := removeSink s.callbackSink s.distSink
  { s with distSink := if outputs.callback then addSink s.callbackSink sinks else sinks }

def setOutputs (outputs : Outputs) (failure : Option (List UInt8)) : Impl × Outcome :=
  let s := if outputs.console then s.addConsoleSinks else s.removeConsoleSinks
  match s.reconcileFile outputs failure with
  | none => (s,.thrown)
  | some s =>
    let s := s.reconcileCallback outputs
    ({ s with outputs := ⟨outputs.console,outputs.file && s.fileSink.isSome,
                outputs.callback && s.callbackSink.isSome⟩
              lastError := [] },.returned true)

def step : Call → Impl × Outcome
  | .setConsoleOutput enable => s.setConsoleOutput enable
  | .trySetFileOutputWithRotation filename config failure => s.trySetFileOutputWithRotation filename config failure
  | .setCallback callback => s.setCallback callback
  | .setOutputs outputs failure => s.setOutputs outputs failure

/-- The constructor. -/
def start : Impl := addConsoleSinks ⟨⟨true,false,false⟩,0,none,none,none,none,none,[],{},[],0⟩

/-- Something holds of every call of a run. -/
def EachCall (P : Impl → Call → Prop) : Impl → List Call → Prop
  | _, [] => True
  | s, c :: cs => P s c ∧ EachCall P (s.step c).1 cs

def Attached (sink : Option ℕ) : Prop := ∃ id, sink = some id ∧ id ∈ s.distSink

/-- The bits tell which sinks are attached; each of them is once, and there are no others. -/
structure Consistent : Prop where
  stdout : s.outputs.console = true ↔ s.Attached s.consoleStdout
  stderr : s.outputs.console = true ↔ s.Attached s.consoleStderr
  file : s.outputs.file = true ↔ s.Attached s.fileSink
  callback : s.outputs.callback = true ↔ s.Attached s.callbackSink
  nodup : s.distSink.Nodup
  known : ∀ id ∈ s.distSink, some id ∈ [s.consoleStdout,s.consoleStderr,s.fileSink,s.callbackSink]

/-- After the call outputs and sinks agree, and an exception has changed neither. -/
def Keeps (c : Call) : Prop :=
  (s.step c).1.Consistent ∧
    ((s.step c).2 = .thrown → (s.step c).1.outputs = s.outputs ∧ (s.step c).1.distSink = s.distSink)

/-- No file fails to open in a call of `set_outputs` that switches the console over. -/
def Meets : Call → Prop
  | .setOutputs outputs failure =>
    ¬(outputs.file = true ∧ s.fileSink = none ∧ s.currentLogFile ≠ [] ∧ failure.isSome = true ∧
      outputs.console ≠ s.outputs.console)
  | _ => True

/-- The sinks that the pointers name, attached or not. -/
def pointers : Multiset ℕ :=
  s.consoleStdout.toList + s.consoleStderr.toList + s.fileSink.toList + s.callbackSink.toList

/-- The sinks are attached for the outputs given; the bits may still be others. -/
structure Wired (outputs : Outputs) : Prop where
  sinks : s.distSink = s.consoleStdout.toList + s.consoleStderr.toList + s.fileSink.toList +
    if outputs.callback then (s.callbackSink.toList : Multiset ℕ) else 0
  stdout : s.consoleStdout.isSome = outputs.console
  stderr : s.consoleStderr.isSome = outputs.console
  file : s.fileSink.isSome = outputs.file
  callback : outputs.callback = true → s.callbackSink.isSome = true
  distinct : Distinct s.pointers s.next

section Specs
variable {s : Impl} {o : Outputs}

theorem Wired.le_pointers (h : s.Wired o) : s.distSink ≤ s.pointers := by
  rw [h.sinks]
  unfold pointers
  gcongr
  split
  · exact le_rfl
  · exact Multiset.zero_le _

theorem Wired.next_notMem (h : s.Wired o) : s.next ∉ s.distSink :=
  fun hmem => lt_irrefl _ (h.distinct.lt _ (Multiset.mem_of_le h.le_pointers hmem))

/-- The sinks without those of the console. -/
theorem Wired.without_console (h : s.Wired o) :
    removeSink s.consoleStderr (removeSink s.consoleStdout s.distSink) =
      s.fileSink.toList + if o.callback then (s.callbackSink.toList : Multiset ℕ) else 0 := by
  apply removeSink_eq
  apply removeSink_eq
  rw [h.sinks, add_assoc, add_assoc]

theorem Wired.without_file (h : s.Wired o) :
    removeSink s.fileSink s.distSink = s.consoleStdout.toList + s.consoleStderr.toList +
      if o.callback then (s.callbackSink.toList : Multiset ℕ) else 0 := by
  apply removeSink_eq
  rw [h.sinks, add_right_comm, add_comm]

theorem Wired.without_callback (h : s.Wired o) :
    removeSink s.callbackSink s.distSink =
      s.consoleStdout.toList + s.consoleStderr.toList + s.fileSink.toList := by
  have hs := h.sinks
  cases hc : o.callback with
  | true =>
    apply removeSink_eq
    rw [hs, if_pos hc, add_comm]
  | false =>
    rw [hc, if_neg (by decide), add_zero] at hs
    rw [← hs]
    refine removeSink_of_notMem (fun id hid hmem => ?_)
    have hn := h.distinct.nodup
    unfold pointers at hn
    rw [← hs, hid] at hn
    exact Multiset.disjoint_left.mp (Multiset.nodup_add.mp hn).2.2 hmem (by simp)

theorem Wired.removeConsoleSinks (h : s.Wired o) : s.removeConsoleSinks.Wired { o with console := false } := by
  refine ⟨?_,rfl,rfl,h.file,h.callback,h.distinct.mono ?_ le_rfl⟩
  · unfold Impl.removeConsoleSinks
    simp [h.without_console]
  · unfold Impl.removeConsoleSinks pointers
    gcongr <;> exact Multiset.zero_le _

theorem Wired.console_none (h : s.Wired o) (hc : o.console = false) :
    s.consoleStdout = none ∧ s.consoleStderr = none :=
  ⟨Option.not_isSome_iff_eq_none.mp (by rw [h.stdout, hc]; decide),
    Option.not_isSome_iff_eq_none.mp (by rw [h.stderr, hc]; decide)⟩

theorem removeConsoleSinks_distSink (h : s.Wired o) (hc : o.console = false) :
    s.removeConsoleSinks.distSink = s.distSink := by
  obtain ⟨hout,herr⟩ := h.console_none hc
  refine h.without_console.trans ?_
  rw [h.sinks, hout, herr]
  simp

/-- Console sinks that are there are put back. -/
theorem addConsoleSinks_eq (h : s.Wired o) (hc : o.console = true) : s.addConsoleSinks = s := by
  unfold addConsoleSinks ensureStderr ensureStdout
  rw [if_pos (h.stdout.trans hc), if_pos (h.stderr.trans hc)]
  have hsinks : addSink s.consoleStderr (addSink s.consoleStdout
      (removeSink s.consoleStderr (removeSink s.consoleStdout s.distSink))) = s.distSink := by
    rw [h.without_console]
    conv_rhs => rw [h.sinks]
    unfold addSink
    rw [← add_assoc, ← add_assoc, add_comm (s.consoleStderr.toList : Multiset ℕ)]
  exact congrArg (fun sinks => { s with distSink := sinks }) hsinks

/-- New console sinks are attached when there were none. -/
theorem addConsoleSinks_of_none (h : s.Wired o) (hc : o.console = false) :
    s.addConsoleSinks =
      { s with distSink := (s.next + 1) ::ₘ s.next ::ₘ s.distSink
               consoleStdout := some s.next
               consoleStderr := some (s.next + 1)
               next := s.next + 1 + 1 } := by
  obtain ⟨hout,herr⟩ := h.console_none hc
  have hfresh : s.next ∉ s.distSink := h.next_notMem
  have hfresh' : s.next + 1 ∉ s.distSink := fun hmem =>
    absurd (h.distinct.lt _ (Multiset.mem_of_le h.le_pointers hmem)) (by omega)
  unfold addConsoleSinks ensureStderr ensureStdout
  simp [hout, herr, removeSink, addSink, hfresh, hfresh', Multiset.singleton_add, Multiset.cons_swap]

theorem Wired.addConsoleSinks (h : s.Wired o) : s.addConsoleSinks.Wired { o with console := true } := by
  cases hc : o.console with
  | true =>
    rw [addConsoleSinks_eq h hc]
    exact ⟨h.sinks,h.stdout.trans hc,h.stderr.trans hc,h.file,h.callback,h.distinct⟩
  | false =>
    obtain ⟨hout,herr⟩ := h.console_none hc
    have hd := h.distinct.cons.cons
    have hs := h.sinks
    unfold pointers at hd
    rw [hout, herr] at hd hs
    rw [addConsoleSinks_of_none h hc]
    refine ⟨?_,rfl,rfl,h.file,h.callback,?_⟩
    · dsimp only
      rw [hs, Multiset.cons_swap]
      simp only [Option.toList_some, Option.toList_none, Multiset.coe_nil, zero_add, Multiset.coe_singleton,
        Multiset.singleton_add, Multiset.cons_add]
    · rw [Multiset.cons_swap] at hd
      unfold pointers
      simpa only [Option.toList_some, Option.toList_none, Multiset.coe_nil, zero_add, Multiset.coe_singleton,
        Multiset.singleton_add, Multiset.cons_add] using hd

theorem Wired.removeFileSink (h : s.Wired o) : s.removeFileSink.Wired { o with file := false } := by
  refine ⟨?_,h.stdout,h.stderr,rfl,h.callback,h.distinct.mono ?_ le_rfl⟩
  · unfold Impl.removeFileSink
    simp [h.without_file]
  · unfold Impl.removeFileSink pointers
    gcongr
    exact Multiset.zero_le _

/-- A new file sink takes the place of one that was dropped. -/
theorem Wired.openFileSink (h : s.Wired o) (hf : s.fileSink = none) :
    ({ s.openFileSink with distSink := addSink (some s.next) s.distSink } : Impl).Wired { o with file := true } := by
  have hd := h.distinct.cons
  have hs := h.sinks
  unfold pointers at hd
  rw [hf] at hd hs
  refine ⟨?_,h.stdout,h.stderr,rfl,h.callback,?_⟩
  · unfold Impl.openFileSink addSink
    rw [hs]
    simp only [Option.toList_some, Option.toList_none, Multiset.coe_nil, add_zero]
    rw [add_comm, add_right_comm]
  · unfold pointers Impl.openFileSink
    simp only [Option.toList_some, Option.toList_none, Multiset.coe_nil, add_zero] at hd ⊢
    rw [add_right_comm, add_comm]
    exact hd

theorem Wired.readdFileSink (h : s.Wired o) :
    ({ s with distSink := addSink s.fileSink (removeSink s.fileSink s.distSink) } : Impl).Wired o := by
  refine ⟨?_,h.stdout,h.stderr,h.file,h.callback,h.distinct⟩
  dsimp only
  rw [h.without_file]
  unfold addSink
  rw [add_comm, add_right_comm]

theorem Wired.removeCallbackSink (h : s.Wired o) :
    ({ s with distSink := removeSink s.callbackSink s.distSink } : Impl).Wired { o with callback := false } := by
  refine ⟨?_,h.stdout,h.stderr,h.file,fun hc => absurd hc Bool.false_ne_true,h.distinct⟩
  dsimp only
  rw [h.without_callback, if_neg Bool.false_ne_true, add_zero]

theorem Wired.addCallbackSink (h : s.Wired o) (hc : s.callbackSink.isSome) :
    ({ s with distSink := addSink s.callbackSink (removeSink s.callbackSink s.distSink) } : Impl).Wired
      { o with callback := true } := by
  refine ⟨?_,h.stdout,h.stderr,h.file,fun _ => hc,h.distinct⟩
  dsimp only
  rw [h.without_callback, if_pos rfl]
  unfold addSink
  exact add_comm _ _

theorem Wired.reconcileFile {outputs : Outputs} {failure : Option (List UInt8)} {s' : Impl} (h : s.Wired o)
    (hs : s.reconcileFile outputs failure = some s') :
    s'.Wired { o with file := outputs.file && s'.fileSink.isSome } := by
  unfold Impl.reconcileFile at hs
  split_ifs at hs with hfile hopen hfail
  · obtain rfl := Option.some.inj hs
    have hnone := Option.isNone_iff_eq_none.mp hopen.1
    have hnew := h.openFileSink hnone
    have hadd : removeSink s.openFileSink.fileSink s.distSink = s.distSink :=
      Multiset.erase_of_notMem h.next_notMem
    rw [hfile]
    dsimp only [Impl.openFileSink] at hadd ⊢
    rw [hadd]
    exact hnew
  · obtain rfl := Option.some.inj hs
    have hre := h.readdFileSink
    rw [hfile, Bool.true_and]
    dsimp only
    rw [h.file]
    exact hre
  · obtain rfl := Option.some.inj hs
    rw [Bool.not_eq_true] at hfile
    rw [hfile, Bool.false_and]
    exact h.removeFileSink

theorem reconcileFile_eq_none {outputs : Outputs} {failure : Option (List UInt8)} :
    s.reconcileFile outputs failure = none ↔
      outputs.file = true ∧ s.fileSink = none ∧ s.currentLogFile ≠ [] ∧ failure.isSome = true := by
  unfold Impl.reconcileFile
  split_ifs with hfile hopen hfail
  · simp_all
  · simp_all
  · simp_all
  · simp_all

theorem Wired.reconcileCallback (h : s.Wired o) (outputs : Outputs) :
    (s.reconcileCallback outputs).Wired { o with callback := outputs.callback && s.callbackSink.isSome } := by
  unfold Impl.reconcileCallback
  dsimp only
  cases hc : outputs.callback with
  | false => exact h.removeCallbackSink
  | true =>
    rw [if_pos rfl, Bool.true_and]
    cases hs : s.callbackSink.isSome with
    | true => exact h.addCallbackSink hs
    | false =>
      have hnone := Option.not_isSome_iff_eq_none.mp (by rw [hs]; decide)
      have hremoved := h.removeCallbackSink
      rw [hnone] at hremoved ⊢
      simpa [addSink] using hremoved

theorem attached_iff {sink : Option ℕ} (hle : (sink.toList : Multiset ℕ) ≤ s.distSink) :
    sink.isSome = true ↔ s.Attached sink := by
  cases sink with
  | none => simp [Attached]
  | some id =>
    refine iff_of_true rfl ⟨id,rfl,Multiset.mem_of_le hle ?_⟩
    simp

theorem Wired.stdout_attached (h : s.Wired o) : o.console = true ↔ s.Attached s.consoleStdout := by
  rw [← h.stdout]
  refine attached_iff ?_
  rw [h.sinks, add_assoc, add_assoc]
  exact Multiset.le_add_right _ _

theorem Wired.consistent (h : s.Wired s.outputs) : s.Consistent := by
  have hs := h.sinks
  have hle := h.le_pointers
  have hn := h.distinct.nodup
  refine ⟨h.stdout_attached,?_,?_,?_,Multiset.nodup_of_le hle hn,fun id hid => ?_⟩
  · rw [← h.stderr]
    refine attached_iff ?_
    rw [hs, add_comm (s.consoleStdout.toList : Multiset ℕ), add_assoc, add_assoc]
    exact Multiset.le_add_right _ _
  · rw [← h.file]
    refine attached_iff ?_
    rw [hs, add_right_comm]
    exact Multiset.le_add_left _ _
  · constructor
    · intro hc
      refine (attached_iff ?_).mp (h.callback hc)
      rw [hs, if_pos hc]
      exact Multiset.le_add_left _ _
    · rintro ⟨id,hsink,hmem⟩
      by_contra hc
      -- The sink of the callback is none of the others.
      unfold pointers at hn
      rw [hs, if_neg hc, add_zero] at hmem
      rw [hsink] at hn
      exact Multiset.disjoint_left.mp (Multiset.nodup_add.mp hn).2.2 hmem (by simp)
  · have hmem := Multiset.mem_of_le hle hid
    unfold pointers at hmem
    simpa [eq_comm, or_assoc] using hmem

theorem Wired.console (h : s.Wired o) (enable : Bool) :
    (if enable then s.addConsoleSinks else s.removeConsoleSinks).Wired { o with console := enable } := by
  cases enable with
  | true => exact h.addConsoleSinks
  | false => exact h.removeConsoleSinks

theorem console_frame (s : Impl) (enable : Bool) :
    (if enable then s.addConsoleSinks else s.removeConsoleSinks).outputs = s.outputs ∧
    (if enable then s.addConsoleSinks else s.removeConsoleSinks).fileSink = s.fileSink ∧
    (if enable then s.addConsoleSinks else s.removeConsoleSinks).currentLogFile = s.currentLogFile := by
  cases enable with
  | false => exact ⟨rfl,rfl,rfl⟩
  | true =>
    rw [if_pos rfl]
    unfold addConsoleSinks ensureStderr ensureStdout
    split <;> split <;> exact ⟨rfl,rfl,rfl⟩

theorem Wired.setConsoleOutput (h : s.Wired s.outputs) (enable : Bool) :
    (s.setConsoleOutput enable).1.Wired (s.setConsoleOutput enable).1.outputs := by
  have hw := h.console enable
  rw [← (console_frame s enable).1] at hw
  exact ⟨hw.sinks,hw.stdout,hw.stderr,hw.file,hw.callback,hw.distinct⟩

theorem Wired.trySetFileOutput (h : s.Wired s.outputs) (filename : List UInt8) (config : LogRotationConfig)
    (failure : Option (List UInt8)) :
    (s.trySetFileOutputWithRotation filename config failure).1.Wired
      (s.trySetFileOutputWithRotation filename config failure).1.outputs := by
  have hr := h.removeFileSink
  unfold trySetFileOutputWithRotation
  split_ifs
  · exact ⟨hr.sinks,hr.stdout,hr.stderr,hr.file,hr.callback,hr.distinct⟩
  · exact ⟨h.sinks,h.stdout,h.stderr,h.file,h.callback,h.distinct⟩
  · exact ⟨h.sinks,h.stdout,h.stderr,h.file,h.callback,h.distinct⟩
  · cases failure with
    | some what => exact ⟨hr.sinks,hr.stdout,hr.stderr,hr.file,hr.callback,hr.distinct⟩
    | none =>
      have hw := hr.openFileSink rfl
      exact ⟨hw.sinks,hw.stdout,hw.stderr,hw.file,hw.callback,hw.distinct⟩

theorem Wired.setCallback (h : s.Wired s.outputs) (callback : Option ℕ) :
    (s.setCallback callback).1.Wired (s.setCallback callback).1.outputs := by
  have hr := h.removeCallbackSink
  unfold Impl.setCallback
  split_ifs with hnone hsome
  · refine ⟨?_,hr.stdout,hr.stderr,hr.file,fun hc => absurd hc Bool.false_ne_true,?_⟩
    · exact hr.sinks
    · refine hr.distinct.mono ?_ le_rfl
      unfold pointers
      gcongr
      exact Multiset.zero_le _
  · have hw := h.addCallbackSink hsome
    exact ⟨hw.sinks,hw.stdout,hw.stderr,hw.file,hw.callback,hw.distinct⟩
  · have hnone := Option.not_isSome_iff_eq_none.mp hsome
    have hbit : ¬s.outputs.callback = true := fun hc => hsome (h.callback hc)
    have hs := h.sinks
    have hd := h.distinct.cons
    unfold pointers at hd
    rw [if_neg hbit, add_zero] at hs
    rw [hnone] at hd
    simp only [Option.toList_none, Multiset.coe_nil, add_zero] at hd
    refine ⟨?_,h.stdout,h.stderr,h.file,fun _ => rfl,?_⟩
    · dsimp only
      rw [if_pos rfl, hs]
      exact add_comm _ _
    · unfold pointers
      dsimp only
      rw [add_comm]
      exact hd

theorem Wired.setOutputs (h : s.Wired s.outputs) (outputs : Outputs) (failure : Option (List UInt8)) :
    (s.setOutputs outputs failure).2 ≠ .thrown →
      (s.setOutputs outputs failure).1.Wired (s.setOutputs outputs failure).1.outputs := by
  have hw := h.console outputs.console
  unfold Impl.setOutputs
  dsimp only
  cases hf : (if outputs.console then s.addConsoleSinks else s.removeConsoleSinks).reconcileFile outputs failure with
  | none => exact fun hne => absurd rfl hne
  | some s' =>
    intro _
    have hc := (hw.reconcileFile hf).reconcileCallback outputs
    exact ⟨hc.sinks,hc.stdout,hc.stderr,hc.file,hc.callback,hc.distinct⟩

theorem setOutputs_thrown (s : Impl) {outputs : Outputs} {failure : Option (List UInt8)} :
    (s.setOutputs outputs failure).2 = .thrown ↔
      outputs.file = true ∧ s.fileSink = none ∧ s.currentLogFile ≠ [] ∧ failure.isSome = true := by
  obtain ⟨-,hfile,hname⟩ := console_frame s outputs.console
  rw [← hfile, ← hname, ← reconcileFile_eq_none]
  unfold Impl.setOutputs
  dsimp only
  cases (if outputs.console then s.addConsoleSinks else s.removeConsoleSinks).reconcileFile outputs failure with
  | none => simp
  | some s' => simp

/-- The exception comes after the console was seen to. -/
theorem setOutputs_of_thrown (s : Impl) {outputs : Outputs} {failure : Option (List UInt8)}
    (ht : (s.setOutputs outputs failure).2 = .thrown) :
    (s.setOutputs outputs failure).1 = if outputs.console then s.addConsoleSinks else s.removeConsoleSinks := by
  unfold Impl.setOutputs at ht ⊢
  dsimp only at ht ⊢
  cases hf : (if outputs.console then s.addConsoleSinks else s.removeConsoleSinks).reconcileFile outputs failure with
  | none => rfl
  | some s' =>
    rw [hf] at ht
    cases ht

/-- Whether an exception leaves the sinks as they were is a matter of the console. -/
theorem Wired.keeps_of_thrown (h : s.Wired s.outputs) {outputs : Outputs} {failure : Option (List UInt8)}
    (ht : (s.setOutputs outputs failure).2 = .thrown) :
    s.Keeps (.setOutputs outputs failure) ↔ outputs.console = s.outputs.console := by
  have hstate := setOutputs_of_thrown s ht
  have hw := h.console outputs.console
  obtain ⟨hout,-⟩ := console_frame s outputs.console
  rw [← hstate] at hw hout
  unfold Keeps step
  constructor
  · rintro ⟨hc,-⟩
    have hbit := hw.stdout_attached.trans hc.stdout.symm
    rw [hout] at hbit
    exact Bool.eq_iff_iff.mpr hbit
  · intro hsame
    rw [hsame, ← hout] at hw
    refine ⟨hw.consistent,fun _ => ⟨hout,?_⟩⟩
    rw [hstate, hsame]
    cases hc : s.outputs.console with
    | true => exact congrArg distSink (addConsoleSinks_eq h hc)
    | false => exact removeConsoleSinks_distSink h hc

/-- A call that meets the condition leaves the sinks attached for the outputs. -/
theorem Wired.step (h : s.Wired s.outputs) {c : Call} (hm : s.Meets c) : (s.step c).1.Wired (s.step c).1.outputs := by
  cases c with
  | setConsoleOutput enable => exact h.setConsoleOutput enable
  | trySetFileOutputWithRotation filename config failure => exact h.trySetFileOutput filename config failure
  | setCallback callback => exact h.setCallback callback
  | setOutputs outputs failure =>
    by_cases ht : (s.setOutputs outputs failure).2 = .thrown
    · obtain ⟨hfile,hsink,hname,hfails⟩ := (setOutputs_thrown s).mp ht
      have hsame : outputs.console = s.outputs.console :=
        not_not.mp (fun hne => hm ⟨hfile,hsink,hname,hfails,hne⟩)
      have hw := h.console outputs.console
      obtain ⟨hout,-⟩ := console_frame s outputs.console
      rw [← setOutputs_of_thrown s ht] at hw hout
      rw [hsame, ← hout] at hw
      exact hw
    · exact h.setOutputs outputs failure ht

theorem Wired.keeps_iff (h : s.Wired s.outputs) (c : Call) : s.Keeps c ↔ s.Meets c := by
  have hreturn : (s.step c).2 ≠ .thrown → s.Meets c → s.Keeps c :=
    fun hne hm => ⟨(h.step hm).consistent,fun ht => absurd ht hne⟩
  cases c with
  | setConsoleOutput enable => exact iff_of_true (hreturn (by simp [Impl.step, Impl.setConsoleOutput]) trivial) trivial
  | trySetFileOutputWithRotation filename config failure =>
    refine iff_of_true (hreturn ?_ trivial) trivial
    unfold Impl.step trySetFileOutputWithRotation
    dsimp only
    split_ifs <;> try simp
    cases failure <;> simp
  | setCallback callback =>
    refine iff_of_true (hreturn ?_ trivial) trivial
    unfold Impl.step Impl.setCallback
    dsimp only
    split_ifs <;> simp
  | setOutputs outputs failure =>
    by_cases ht : (s.setOutputs outputs failure).2 = .thrown
    · obtain ⟨hfile,hsink,hname,hfails⟩ := (setOutputs_thrown s).mp ht
      rw [h.keeps_of_thrown ht]
      exact ⟨fun hsame hv => hv.2.2.2.2 hsame,
        fun hm => not_not.mp (fun hne => hm ⟨hfile,hsink,hname,hfails,hne⟩)⟩
    · have hm : s.Meets (.setOutputs outputs failure) :=
        fun hv => ht ((setOutputs_thrown s).mpr ⟨hv.1,hv.2.1,hv.2.2.1,hv.2.2.2.1⟩)
      exact iff_of_true (hreturn ht hm) hm

theorem start_wired : start.Wired start.outputs := by
  have hempty : (⟨⟨true,false,false⟩,0,none,none,none,none,none,[],{},[],0⟩ : Impl).Wired ⟨false,false,false⟩ :=
    ⟨rfl,rfl,rfl,rfl,fun hc => absurd hc Bool.false_ne_true,
      ⟨Multiset.nodup_zero,fun id hid => by simp [pointers] at hid⟩⟩
  exact hempty.addConsoleSinks

/-- In a run of calls, exceptions included, outputs and sinks agree throughout exactly
when no call that switches the console over fails to open its file. -/
theorem outputs_match_iff (cs : List Call) : EachCall Keeps start cs ↔ EachCall Meets start cs := by
  have hrun : ∀ (s : Impl), s.Wired s.outputs → (EachCall Keeps s cs ↔ EachCall Meets s cs) := by
    induction cs with
    | nil => exact fun s _ => Iff.rfl
    | cons c cs ih =>
      intro s h
      refine (and_congr_left' (h.keeps_iff c)).trans (and_congr_right fun hm => ?_)
      exact ih (s.step c).1 (h.step hm)
  exact hrun start start_wired

end Specs

/-- The file was closed and can no longer be opened when the outputs are switched over to it. -/
def lostConsole : List Call :=
  [.trySetFileOutputWithRotation (ascii "app.log") {} none,.setOutputs ⟨true,false,false⟩ none,
    .setOutputs ⟨false,true,false⟩ (some (ascii "Permission denied"))]

theorem lostConsole_fails : ¬EachCall Keeps start lostConsole := by
  rintro ⟨-,-,⟨-,hkeeps⟩,-⟩
  exact absurd (hkeeps (by decide)).2 (by decide)

end Impl
end Wirestead.Diagnostics.Logger
