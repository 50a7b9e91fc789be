import Mathlib

/-! # The callback gate

Admission, the count and the closed flag change under one mutex, so every call is one
step of some thread. A lease lives in a variable; moving it to another variable does not
reach the gate, and a lease is released on the thread that entered. Generations are
counted without the wrap of their 64-bit word.
-/
namespace Wirestead.Wrapper

/-- An admitted lease: its variable, the thread that entered and its generation. -/
structure Lease where
  var : ℕ
  thread : ℕ
  generation : ℕ
  deriving DecidableEq, Repr

/-- The gate, the live admitted leases and the number of variables so far. -/
structure CallbackGate where
  running : ℤ
  closed : Bool
  generation : ℕ
  threads : List ℕ
  leases : List Lease
  vars : ℕ
  deriving DecidableEq, Repr

inductive GateOp
  | enter (thread generation : ℕ)
  | moveConstruct (source : ℕ)
  | moveAssign (target source : ℕ)
  | destroy (var : ℕ)
  | close (thread : ℕ)
  | openNewGeneration (thread : ℕ)
  | waitUntilIdle (thread : ℕ)
  deriving DecidableEq, Repr

namespace CallbackGate

def new : CallbackGate := ⟨0,false,0,[],[],0⟩

/-- `enter`: whether the lease is admitted, and the gate afterwards. -/
def enter (g : CallbackGate) (thread generation : ℕ) : Bool × CallbackGate :=
  if g.closed ∨ generation ≠ g.generation then (false,{ g with vars := g.vars + 1 })
  else
    (true,{ g with running := g.running + 1
                   threads := g.threads ++ [thread]
                   leases := ⟨g.vars,thread,generation⟩ :: g.leases
                   vars := g.vars + 1 })

/-- The live lease of a variable; an empty variable has none. -/
def lease? (g : CallbackGate) (var : ℕ) : Option Lease := g.leases.find? (·.var = var)

/-- `Lease::release`. -/
def release (g : CallbackGate) (var : ℕ) : CallbackGate :=
  match g.lease? var with
  | none => g
  | some lease =>
    { g with running := g.running - 1
             threads := g.threads.erase lease.thread
             leases := g.leases.erase lease }

/-- The variable `target` takes over what `source` holds. -/
def take (g : CallbackGate) (target source : ℕ) : CallbackGate :=
  match g.lease? source with
  | none => g
  | some lease => { g with leases := { lease with var := target } :: g.leases.erase lease }

def close (g : CallbackGate) : CallbackGate := { g with closed := true }

def openNewGeneration (g : CallbackGate) : CallbackGate :=
  { g with closed := false, generation := g.generation + 1 }

/-- `wait_until_idle` returns only in a state in which this holds. -/
def idle (g : CallbackGate) : Bool := decide (g.running = 0)

def step (g : CallbackGate) : GateOp → CallbackGate
  | .enter thread generation => (g.enter thread generation).2
  | .moveConstruct source => { g.take g.vars source with vars := g.vars + 1 }
  | .moveAssign target source => if target = source then g else (g.release target).take target source
  | .destroy var => g.release var
  | .close _ => g.close
  | .openNewGeneration _ => g.openNewGeneration
  | .waitUntilIdle _ => g

def run (g : CallbackGate) (ops : List GateOp) : CallbackGate := ops.foldl step g

/-- A new run is opened by the step. -/
def opens : GateOp → Bool
  | .openNewGeneration _ => true
  | _ => false

/-- The count and the threads are those of the live leases. -/
structure Counted (g : CallbackGate) : Prop where
  running : g.running = g.leases.length
  threads : g.threads.Perm (g.leases.map (·.thread))

theorem enter_admits {g : CallbackGate} {thread generation : ℕ}
    (h : (g.enter thread generation).1 = true) : g.closed = false ∧ generation = g.generation := by
  unfold enter at h
  split at h
  · cases h
  · rename_i hopen
    simpa using hopen

section Counting
variable {g : CallbackGate}

theorem Counted.release (h : g.Counted) (var : ℕ) : (g.release var).Counted := by
  unfold CallbackGate.release
  cases hf : g.lease? var with
  | none => exact h
  | some lease =>
    have hm : lease ∈ g.leases := List.mem_of_find?_eq_some hf
    constructor
    · have hpos := List.length_pos_of_mem hm
      change g.running - 1 = ((g.leases.erase lease).length : ℤ)
      rw [List.length_erase_of_mem hm, h.running]
      omega
    · have hperm := h.threads.trans ((List.perm_cons_erase hm).map Lease.thread)
      have herase := hperm.erase lease.thread
      rwa [List.map_cons, List.erase_cons_head] at herase

theorem Counted.take (h : g.Counted) (target source : ℕ) : (g.take target source).Counted := by
  unfold CallbackGate.take
  cases hf : g.lease? source with
  | none => exact h
  | some lease =>
    have hm : lease ∈ g.leases := List.mem_of_find?_eq_some hf
    constructor
    · rw [h.running, (List.perm_cons_erase hm).length_eq]
      rfl
    · exact h.threads.trans ((List.perm_cons_erase hm).map Lease.thread)

theorem Counted.enter (h : g.Counted) (thread generation : ℕ) :
    (g.enter thread generation).2.Counted := by
  unfold CallbackGate.enter
  split
  · exact ⟨h.running,h.threads⟩
  · constructor
    · change g.running + 1 = ((g.leases.length + 1 : ℕ) : ℤ)
      rw [h.running]
      rfl
    · exact (List.perm_append_singleton thread g.threads).trans (h.threads.cons thread)

theorem Counted.step (h : g.Counted) (op : GateOp) : (g.step op).Counted := by
  cases op with
  | enter thread generation => exact h.enter thread generation
  | moveConstruct source => exact ⟨(h.take g.vars source).running,(h.take g.vars source).threads⟩
  | moveAssign target source =>
    change (if target = source then g else (g.release target).take target source).Counted
    split
    · exact h
    · exact (h.release target).take target source
  | destroy var => exact h.release var
  | close thread => exact ⟨h.running,h.threads⟩
  | openNewGeneration thread => exact ⟨h.running,h.threads⟩
  | waitUntilIdle thread => exact h

theorem Counted.run (h : g.Counted) (ops : List GateOp) : (g.run ops).Counted := by
  induction ops generalizing g with
  | nil => exact h
  | cons op ops ih => exact ih (h.step op)

theorem counted_new : new.Counted := ⟨rfl,.nil⟩

end Counting

section Shutdown
variable {g : CallbackGate}

theorem release_fields (g : CallbackGate) (var : ℕ) :
    (g.release var).closed = g.closed ∧ (g.release var).generation = g.generation ∧
    (g.release var).leases.length ≤ g.leases.length := by
  unfold release
  split
  · exact ⟨rfl,rfl,le_rfl⟩
  · exact ⟨rfl,rfl,List.erase_sublist.length_le⟩

theorem take_fields (g : CallbackGate) (target source : ℕ) :
    (g.take target source).closed = g.closed ∧ (g.take target source).generation = g.generation ∧
    (g.take target source).leases.length = g.leases.length := by
  unfold take
  cases hf : g.lease? source with
  | none => exact ⟨rfl,rfl,rfl⟩
  | some lease =>
    exact ⟨rfl,rfl,(List.perm_cons_erase (List.mem_of_find?_eq_some hf)).length_eq.symm⟩

/-- A closed gate stays closed and admits nobody until a run is opened. -/
theorem step_closed (hc : g.closed = true) {op : GateOp} (hop : opens op = false) :
    (g.step op).closed = true ∧ (g.step op).leases.length ≤ g.leases.length := by
  cases op with
  | enter thread generation =>
    change (g.enter thread generation).2.closed = true ∧ (g.enter thread generation).2.leases.length ≤ _
    unfold enter
    rw [if_pos (.inl hc)]
    exact ⟨hc,le_rfl⟩
  | moveConstruct source =>
    obtain ⟨h1,-,h3⟩ := g.take_fields g.vars source
    exact ⟨h1.trans hc,h3.le⟩
  | moveAssign target source =>
    change (if target = source then g else (g.release target).take target source).closed = true ∧
      (if target = source then g else (g.release target).take target source).leases.length ≤ _
    split
    · exact ⟨hc,le_rfl⟩
    · obtain ⟨h1,-,h3⟩ := g.release_fields target
      obtain ⟨h1',-,h3'⟩ := (g.release target).take_fields target source
      exact ⟨(h1'.trans h1).trans hc,h3'.le.trans h3⟩
  | destroy var =>
    obtain ⟨h1,-,h3⟩ := g.release_fields var
    exact ⟨h1.trans hc,h3⟩
  | close thread => exact ⟨rfl,le_rfl⟩
  | openNewGeneration thread => cases hop
  | waitUntilIdle thread => exact ⟨hc,le_rfl⟩

theorem run_closed (hc : g.closed = true) {ops : List GateOp} (hops : ∀ op ∈ ops, opens op = false) :
    (g.run ops).closed = true ∧ (g.run ops).leases.length ≤ g.leases.length := by
  induction ops generalizing g with
  | nil => exact ⟨hc,le_rfl⟩
  | cons op ops ih =>
    obtain ⟨h1,h2⟩ := step_closed hc (hops op List.mem_cons_self)
    obtain ⟨h3,h4⟩ := ih h1 (fun o ho => hops o (List.mem_cons_of_mem _ ho))
    exact ⟨h3,h4.trans h2⟩

/-- The gate is closed to the generations up to `n`. -/
def Past (n : ℕ) (g : CallbackGate) : Prop := n < g.generation ∨ n = g.generation ∧ g.closed = true

theorem Past.refuses {n : ℕ} (h : Past n g) (thread : ℕ) {generation : ℕ} (hg : generation ≤ n) :
    (g.enter thread generation).1 = false := by
  cases he : (g.enter thread generation).1 with
  | false => rfl
  | true =>
    obtain ⟨h1,h2⟩ := enter_admits he
    rcases h with h | ⟨-,h⟩
    · omega
    · rw [h1] at h
      cases h

theorem Past.step {n : ℕ} (h : Past n g) (op : GateOp) : Past n (g.step op) := by
  have hkeep : ∀ t : CallbackGate, t.closed = g.closed → t.generation = g.generation → Past n t := by
    intro t h1 h2
    unfold Past
    rw [h1, h2]
    exact h
  cases op with
  | enter thread generation =>
    change Past n (g.enter thread generation).2
    unfold enter
    split <;> exact hkeep _ rfl rfl
  | moveConstruct source =>
    obtain ⟨h1,h2,-⟩ := g.take_fields g.vars source
    exact hkeep _ h1 h2
  | moveAssign target source =>
    change Past n (if target = source then g else (g.release target).take target source)
    split
    · exact h
    · obtain ⟨h1,h2,-⟩ := g.release_fields target
      obtain ⟨h1',h2',-⟩ := (g.release target).take_fields target source
      exact hkeep _ (h1'.trans h1) (h2'.trans h2)
  | destroy var =>
    obtain ⟨h1,h2,-⟩ := g.release_fields var
    exact hkeep _ h1 h2
  | close thread => exact h.imp id (fun hg => ⟨hg.1,rfl⟩)
  | openNewGeneration thread => exact .inl (h.elim Nat.lt_succ_of_lt (fun hg => hg.1 ▸ Nat.lt_succ_self _))
  | waitUntilIdle thread => exact h

theorem Past.run {n : ℕ} (h : Past n g) (ops : List GateOp) : Past n (g.run ops) := by
  induction ops generalizing g with
  | nil => exact h
  | cons op ops ih => exact ih (h.step op)

end Shutdown

/-- What a thread may rely on whose `close` was followed by a `wait_until_idle` that
returned in the state `g`. -/
structure ShutDown (g : CallbackGate) : Prop where
  none_live : ∀ later, (∀ op ∈ later, opens op = false) → (g.run later).leases = []
  refused : ∀ later thread generation, generation ≤ g.generation →
    ((g.run later).enter thread generation).1 = false

/-- The gate counts exactly the live leases, admits only the present run, and shutdown is
complete when the wait returns. -/
theorem run_safe (ops : List GateOp) :
    (new.run ops).Counted ∧
    (∀ thread generation, ((new.run ops).enter thread generation).1 = true →
      (new.run ops).closed = false ∧ generation = (new.run ops).generation) ∧
    ∀ before thread since, ops = before ++ .close thread :: since →
      (∀ op ∈ since, opens op = false) → (new.run ops).idle = true → (new.run ops).ShutDown := by
  have hcounted := counted_new.run ops
  refine ⟨hcounted,fun _ _ h => enter_admits h,?_⟩
  rintro before thread since rfl hsince hidle
  have hrun : new.run (before ++ .close thread :: since) = ((new.run before).close).run since := by
    unfold run
    rw [List.foldl_append]
    rfl
  rw [hrun] at hcounted hidle ⊢
  have hclosed := (run_closed (g := (new.run before).close) rfl hsince).1
  have hempty : (((new.run before).close).run since).leases.length = 0 := by
    have hzero : (((new.run before).close).run since).running = 0 := of_decide_eq_true hidle
    have hr := hcounted.running
    omega
  constructor
  · intro later hlater
    have hle := (run_closed hclosed hlater).2
    exact List.length_eq_zero_iff.mp (by omega)
  · intro later t generation hg
    exact (Past.run (.inr ⟨rfl,hclosed⟩) later).refuses t hg

end CallbackGate
end Wirestead.Wrapper
