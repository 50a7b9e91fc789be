import Wirestead.Calls.Throwing
import Wirestead.Wrapper.StagedReceive

/-! # A refused receive leaves nothing behind

Until the clone is committed a call only charges bytes, and `owned` says how many of
them its locals hold. Whatever throws, the unwinding gives back exactly these; the one
charge that stays is the one for storage the framer had before.
-/
namespace Wirestead.Wrapper
open Calls Framer

/-- The receiver `b` with what the call has charged since, `c` bytes at least. -/
structure Upto (b : Receiver) (c : ℕ) (s : Receiver) : Prop where
  framer : s.framer = b.framer
  capacity : s.capacity = b.capacity
  frameStorage : s.frameStorage = b.frameStorage
  used : s.used = b.used + s.owned
  held : c ≤ s.owned

/-- The receiver once storage that the framer brings along is charged. -/
def Receiver.storageCharged (s : Receiver) : Receiver :=
  if s.frameStorage = none ∧ s.capacity ≠ 0 then
    { s with used := s.used + s.capacity, frameStorage := some s.capacity }
  else s

namespace Upto
variable {b : Receiver} {c d : ℕ} {s : Receiver}

theorem mono (h : Upto b c s) (hd : d ≤ c) : Upto b d s := { h with held := hd.trans h.held }

/-- A charge that a local takes. -/
theorem take (h : Upto b c s) (bytes : ℕ) :
    Upto b (c + bytes) { s with used := s.used + bytes, owned := s.owned + bytes } where
  framer := h.framer
  capacity := h.capacity
  frameStorage := h.frameStorage
  used := by
    have := h.used
    dsimp only
    omega
  held := Nat.add_le_add_right h.held bytes

/-- A charge that a local gives back. -/
theorem give (h : Upto b (c + d) s) :
    Upto b d { s with used := s.used - c, owned := s.owned - c } where
  framer := h.framer
  capacity := h.capacity
  frameStorage := h.frameStorage
  used := by
    have := h.used
    have := h.held
    dsimp only
    omega
  held := by
    have := h.held
    dsimp only
    omega

/-- The charge for the framer's storage goes from the call to the receive state. -/
theorem store (h : Upto b (c + b.capacity) s) (hn : b.frameStorage = none ∧ b.capacity ≠ 0) :
    Upto b.storageCharged c
      { s with frameStorage := some b.capacity, owned := s.owned - b.capacity } := by
  have hu := h.used
  have hh := h.held
  rw [Receiver.storageCharged, if_pos hn]
  refine ⟨h.framer,h.capacity,rfl,?_,?_⟩
  · dsimp only
    omega
  · dsimp only
    omega

section Triples
variable {limits : ReceiveLimits} {fails : ℕ → Bool} {records : ℕ}

theorem allocate : Meets (Upto b c) (Wrapper.allocate fails) (fun _ => Upto b c)
    (fun _ => Upto b 0) := by
  intro s h
  unfold Wrapper.allocate
  split <;> rename_i he <;> split at he <;> cases he
  · exact { h with }
  · exact { h with held := Nat.zero_le _ }

theorem reserve (bytes : ℕ) : Meets (Upto b c) (Wrapper.reserve limits fails bytes)
    (fun ok => Upto b (if ok then c + bytes else c)) (fun _ => Upto b 0) := by
  intro s h
  unfold Wrapper.reserve
  by_cases hb : limits.maxBytes - s.used < bytes
  · simp only [if_pos hb]
    exact h
  · simp only [if_neg hb, Wrapper.allocate]
    cases hf : fails s.allocations with
    | false => exact { h.take bytes with }
    | true =>
      have hu := h.used
      refine ⟨h.framer,h.capacity,h.frameStorage,?_,Nat.zero_le _⟩
      simpa using hu

theorem reserveReceive (bytes : ℕ) : Meets (Upto b c) (Wrapper.reserveReceive limits fails bytes)
    (fun _ => Upto b (c + bytes)) (fun _ => Upto b 0) := by
  apply (reserve bytes).bind
  intro ok
  cases ok
  · exact Meets.throw (fun s h => h.mono (Nat.zero_le _))
  · exact Meets.pure (fun s h => h)

theorem retainReceived (bytes : List UInt8) :
    Meets (Upto b c) (Wrapper.retainReceived limits fails records bytes)
      (fun _ => Upto b c) (fun _ => Upto b 0) := by
  unfold Wrapper.retainReceived
  apply Meets.ite
  · intro _
    exact Meets.throw (fun s h => h.mono (Nat.zero_le _))
  · intro _
    apply (reserveReceive _).bind
    intro _
    exact allocate.weaken (fun s h => h.mono (Nat.le_add_right _ _)) (fun _ _ h => h) (fun _ _ h => h)

theorem stageMessages (ms : List (List UInt8)) :
    Meets (Upto b c) (Wrapper.stageMessages limits fails records ms)
      (fun _ => Upto b c) (fun _ => Upto b 0) := by
  induction ms with
  | nil => exact Meets.pure (fun s h => h)
  | cons m ms ih =>
    apply (retainReceived m).bind
    intro _
    apply allocate.bind
    intro _
    exact ih

theorem reserveGrowth (target needed : ℕ) :
    Meets (Upto b c) (Wrapper.reserveGrowth limits fails target needed)
      (fun n => Upto b (c + n)) (fun _ => Upto b 0) := by
  have hexact : Meets (Upto b c)
      (Wrapper.reserveReceive limits fails needed >>= fun _ => Pure.pure needed)
      (fun n => Upto b (c + n)) (fun _ => Upto b 0) := by
    apply (reserveReceive needed).bind
    intro _
    exact Meets.pure (fun s h => h)
  by_cases ht : needed < target
  · simp only [Wrapper.reserveGrowth, if_pos ht]
    apply (reserve target).bind
    intro ok
    cases ok
    · exact hexact
    · exact Meets.pure (fun s h => h)
  · simp only [Wrapper.reserveGrowth, if_neg ht]
    exact hexact

/-- The old charge is given back after the new one is taken. -/
theorem growWork (w : Work) (needed : ℕ) :
    Meets (Upto b w.charge) (Wrapper.growWork limits fails w needed)
      (fun w' => Upto b w'.charge) (fun _ => Upto b 0) := by
  unfold Wrapper.growWork
  apply Meets.ite
  · intro _
    exact Meets.pure (fun s h => h)
  · intro _
    apply (reserveGrowth _ needed).bind
    intro n
    apply allocate.bind
    intro _
    apply (Meets.update (Q := fun _ => Upto b n) (fun s h => h.give)).bind
    intro _
    exact Meets.pure (fun s h => h)

/-- However far the loop gets, the framer is as before and what is charged is held. -/
theorem stageLoop (fuel : ℕ) (w : Work) (rest : List UInt8) (out : List (List UInt8)) :
    Meets (Upto b w.charge) (Wrapper.stageLoop limits fails records fuel w rest out)
      (fun r => Upto b r.1.charge) (fun _ => Upto b 0) := by
  induction fuel generalizing w rest out with
  | zero => exact Meets.pure (fun s h => h)
  | succ fuel ih =>
    unfold Wrapper.stageLoop
    apply Meets.ite
    · intro _
      exact Meets.pure (fun s h => h)
    intro _
    apply Meets.ite
    · intro _
      exact Meets.throw (fun s h => h.mono (Nat.zero_le _))
    intro _
    dsimp only
    generalize min rest.length (min (limits.maxFrameBytes - w.framer.buffer.length) 4096) = n
    apply (growWork w _).bind
    intro w'
    apply (stageMessages _).bind
    intro _
    exact ih { w' with framer := (w'.framer.pushBytes (rest.take n)).1 } (rest.drop n)
      (out ++ (w'.framer.pushBytes (rest.take n)).2)

theorem chargeStorage : Meets (Upto b c) (Wrapper.chargeStorage limits fails)
    (fun _ => Upto b.storageCharged c) (fun _ => Upto b 0) := by
  apply (Meets.get (Q := fun s t => s = t ∧ Upto b c t) (fun s h => ⟨rfl,h⟩)).bind
  intro r s ⟨hr,h⟩
  subst hr
  rw [h.capacity, h.frameStorage]
  revert h
  refine Meets.ite ?_ ?_ r
  · intro _
    exact Meets.throw (fun s h => h.mono (Nat.zero_le _))
  intro _
  apply Meets.ite
  · intro hn
    apply (reserveReceive _).bind
    intro _
    exact Meets.update (fun s h => by simpa only [h.capacity] using h.store hn)
  · intro hn
    apply Meets.pure
    intro s h
    rwa [Receiver.storageCharged, if_neg hn]

end Triples
end Upto

section Refused
variable {limits : ReceiveLimits} {fails : ℕ → Bool} {records : ℕ} {b : Receiver}

/-- A call that throws does so before or after the framer's storage is charged. -/
theorem prepareBody_refused (input : List UInt8) (rawBatch : Bool) :
    Meets (Upto b 0) (prepareBody limits fails records input rawBatch) (fun _ _ => True)
      (fun _ s => Upto b 0 s ∨ Upto b.storageCharged 0 s) := by
  unfold prepareBody
  apply Meets.bind (M := fun _ => Upto b 0)
  · apply Meets.ite
    · intro _
      exact (Upto.retainReceived input).weaken (fun _ h => h) (fun _ _ h => h) (fun _ _ h => .inl h)
    · intro _
      exact Meets.pure (fun s h => h)
  intro _
  apply (Upto.chargeStorage.weaken (fun _ h => h) (fun _ _ h => h) (fun _ _ h => .inl h)).bind
  intro _
  apply Meets.weaken (P := Upto b.storageCharged 0) (Q := fun _ _ => True)
    (R := fun _ => Upto b.storageCharged 0) _ (fun _ h => h) (fun _ _ h => h) (fun _ _ h => .inr h)
  apply (Meets.get (fun s h => h)).bind
  intro r
  apply (Upto.reserveReceive _).bind
  intro _
  apply Upto.allocate.bind
  intro _
  apply Upto.allocate.bind
  intro _
  apply Meets.bind (M := fun _ _ => True)
  · exact (Upto.stageLoop _ _ _ _).weaken (fun s h => h.mono (Nat.le_add_left _ _))
      (fun _ _ _ => trivial) (fun _ _ h => h)
  intro _ s _
  trivial

/-- A refused receive is atomic: nothing reaches the callback, the framer is as before,
and the budget is too, up to the charge for the framer's storage that the receive state
now holds. -/
theorem prepareReceive_refused (input : List UInt8) (rawBatch : Bool) {s s' : Receiver}
    {e : ReceiveFailure} (h : prepareReceive limits fails records input rawBatch s = .error e s') :
    (∀ callback, receiveStaged limits fails records callback input rawBatch s = none) ∧
    s'.framer = s.framer ∧ s'.capacity = s.capacity ∧
    ((s'.frameStorage = s.frameStorage ∧ s'.used = s.used) ∨
      (s.frameStorage = none ∧ s.capacity ≠ 0 ∧ s'.frameStorage = some s.capacity ∧
        s'.used = s.used + s.capacity)) := by
  refine ⟨fun callback => by rw [receiveStaged, h],?_⟩
  unfold prepareReceive at h
  split at h
  · cases h
  rename_i t ht
  cases h
  have hb : Upto { s with owned := 0 } 0 { s with owned := 0 } := ⟨rfl,rfl,rfl,rfl,le_rfl⟩
  obtain hu | hu := (prepareBody_refused input rawBatch).error hb ht
  · have := hu.used
    exact ⟨hu.framer,hu.capacity,.inl ⟨hu.frameStorage,by dsimp only at this ⊢; omega⟩⟩
  · by_cases hn : s.frameStorage = none ∧ s.capacity ≠ 0
    · rw [Receiver.storageCharged, if_pos hn] at hu
      have := hu.used
      exact ⟨hu.framer,hu.capacity,
        .inr ⟨hn.1,hn.2,hu.frameStorage,by dsimp only at this ⊢; omega⟩⟩
    · rw [Receiver.storageCharged, if_neg hn] at hu
      have := hu.used
      exact ⟨hu.framer,hu.capacity,.inl ⟨hu.frameStorage,by dsimp only at this ⊢; omega⟩⟩

end Refused

/-- The second message of the input does not fit into memory; the framer came with
storage for four bytes, which stays charged. -/
theorem prepareReceive_refused_lines :
    let s : Receiver := ⟨5,none,.line (LineFramer.make [10] false 3) ⟨2,[97,97],false⟩,4,0,0⟩
    ∃ s', prepareReceive smallLimits (· == 9) 0 [10,98,98,10] false s = .error .badAlloc s' ∧
      receiveStaged smallLimits (· == 9) 0 true [10,98,98,10] false s = none ∧
      s'.framer = s.framer ∧ s'.used = s.used + 4 := by
  intro s
  have h : (thrown (prepareReceive smallLimits (· == 9) 0 [10,98,98,10] false s)).map
      (Prod.map id Receiver.used) = some (.badAlloc,9) := by decide +kernel
  obtain ⟨⟨e,t⟩,ht,he⟩ := Option.map_eq_some_iff.mp h
  obtain ⟨rfl,hused⟩ := Prod.mk.inj he
  obtain ⟨hn,hf,-,-⟩ := prepareReceive_refused [10,98,98,10] false (thrown_eq_some.mp ht)
  exact ⟨t,thrown_eq_some.mp ht,hn true,hf,hused⟩

end Wirestead.Wrapper
