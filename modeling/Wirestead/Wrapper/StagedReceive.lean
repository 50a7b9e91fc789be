import Wirestead.Wrapper.BoundedReceive

/-! # Staged receive against direct framing

A staged input reaches the clone as a sequence of pushes. The result is that of one
push of the whole input when the framer does not have to give anything up, or when
the input goes in at once.
-/
namespace Wirestead.Wrapper
open Framer

theorem bind_eq_ok {α β : Type} {x : Receive α} {k : α → Receive β} {s s' : Receiver} {b : β} :
    (x >>= k) s = .ok b s' ↔ ∃ a t, x s = .ok a t ∧ k a t = .ok b s' := by
  change EStateM.bind x k s = _ ↔ _
  unfold EStateM.bind
  cases x s with
  | ok a t => simp
  | error e t => simp

/-- The call leaves the framer alone, also when it throws. -/
def KeepsFramer {α : Type} (x : Receive α) : Prop :=
  ∀ s, match x s with
    | .ok _ t => t.framer = s.framer
    | .error _ t => t.framer = s.framer

namespace KeepsFramer
variable {α β : Type}

theorem ok {x : Receive α} (h : KeepsFramer x) {s t : Receiver} {a : α} (he : x s = .ok a t) :
    t.framer = s.framer := by
  have := h s
  rwa [he] at this

theorem pure (a : α) : KeepsFramer (Pure.pure a : Receive α) := fun _ => rfl

theorem throw (e : ReceiveFailure) : KeepsFramer (MonadExcept.throw e : Receive α) := fun _ => rfl

theorem bind {x : Receive α} {k : α → Receive β} (hx : KeepsFramer x)
    (hk : ∀ a, KeepsFramer (k a)) : KeepsFramer (x >>= k) := by
  intro s
  change match EStateM.bind x k s with | .ok _ t => _ | .error _ t => _
  unfold EStateM.bind
  have h := hx s
  cases he : x s with
  | error e t =>
    rw [he] at h
    exact h
  | ok a t =>
    rw [he] at h
    have h2 := hk a t
    dsimp only at h ⊢
    cases hk' : k a t with
    | ok b u => rw [hk'] at h2; exact h2.trans h
    | error e u => rw [hk'] at h2; exact h2.trans h

theorem allocate (fails : ℕ → Bool) : KeepsFramer (Wrapper.allocate fails) := by
  intro s
  unfold Wrapper.allocate
  split <;> rename_i h <;> split at h <;> cases h <;> rfl

theorem reserve (limits : ReceiveLimits) (fails : ℕ → Bool) (bytes : ℕ) :
    KeepsFramer (Wrapper.reserve limits fails bytes) := by
  intro s
  unfold Wrapper.reserve
  by_cases hb : limits.maxBytes - s.used < bytes
  · rw [if_pos hb]
  · rw [if_neg hb]
    have h := allocate fails { s with used := s.used + bytes }
    split at h <;> rename_i he <;> rw [he] <;> exact h

theorem reserveReceive (limits : ReceiveLimits) (fails : ℕ → Bool) (bytes : ℕ) :
    KeepsFramer (Wrapper.reserveReceive limits fails bytes) := by
  refine (reserve limits fails bytes).bind (fun b => ?_)
  cases b
  · exact throw _
  · exact pure ()

theorem retainReceived (limits : ReceiveLimits) (fails : ℕ → Bool) (records : ℕ)
    (bytes : List UInt8) : KeepsFramer (Wrapper.retainReceived limits fails records bytes) := by
  unfold Wrapper.retainReceived
  split
  · exact throw _
  · exact (reserveReceive limits fails _).bind (fun _ => allocate fails)

theorem chargeStorage (limits : ReceiveLimits) (fails : ℕ → Bool) :
    KeepsFramer (Wrapper.chargeStorage limits fails) := by
  refine bind (fun _ => rfl) (fun s => ?_)
  split
  · exact throw _
  · split
    · exact (reserveReceive limits fails _).bind (fun _ _ => rfl)
    · exact pure ()

end KeepsFramer

section Staging
variable {limits : ReceiveLimits} {fails : ℕ → Bool} {records : ℕ}

theorem growWork_framer {w w' : Work} {needed : ℕ} {s s' : Receiver}
    (h : growWork limits fails w needed s = .ok w' s') : w'.framer = w.framer := by
  unfold growWork at h
  split at h
  · cases h
    rfl
  · obtain ⟨_,_,-,h⟩ := bind_eq_ok.mp h
    obtain ⟨_,_,-,h⟩ := bind_eq_ok.mp h
    obtain ⟨_,_,-,h⟩ := bind_eq_ok.mp h
    cases h
    rfl

/-- The loop is a sequence of pushes that make up the input. -/
theorem stageLoop_ok {fuel : ℕ} {w w' : Work} {rest : List UInt8} {out out' : List (List UInt8)}
    {s s' : Receiver} (hf : rest.length ≤ fuel)
    (h : stageLoop limits fails records fuel w rest out s = .ok (w',out') s') :
    ∃ chunks : List (List UInt8), chunks.flatten = rest ∧ w'.framer = (w.framer.pushAll chunks).1 ∧
      out' = out ++ (w.framer.pushAll chunks).2 ∧
      (rest.length ≤ min 4096 (limits.maxFrameBytes - w.framer.buffer.length) →
        chunks.length ≤ 1) := by
  induction fuel generalizing w rest out s with
  | zero =>
    have hr : rest = [] := List.length_eq_zero_iff.mp (by omega)
    subst hr
    cases h
    exact ⟨[],rfl,rfl,by simp [BuiltinFramer.pushAll],by simp⟩
  | succ fuel ih =>
    unfold stageLoop at h
    by_cases hr : rest = []
    · subst hr
      cases h
      exact ⟨[],rfl,rfl,by simp [BuiltinFramer.pushAll],by simp⟩
    rw [if_neg hr] at h
    split at h
    · cases h
    rename_i hl
    dsimp only at h
    have h0 := List.length_pos_iff.mpr hr
    generalize hn : min rest.length (min (limits.maxFrameBytes - w.framer.buffer.length) 4096) = n at h
    obtain ⟨w1,s1,hw,h⟩ := bind_eq_ok.mp h
    obtain ⟨_,s2,-,h⟩ := bind_eq_ok.mp h
    have hw1 := growWork_framer hw
    by_cases hlast : n = rest.length
    · -- the last turn has nothing left to push
      rw [hlast, List.take_length, List.drop_length] at h
      have hdone : ∀ fuel w out s, stageLoop limits fails records fuel w [] out s = .ok (w,out) s := by
        intro fuel w out s
        cases fuel <;> rfl
      rw [hdone] at h
      cases h
      refine ⟨[rest],by simp,?_,?_,by simp⟩
      · rw [BuiltinFramer.pushAll_singleton, hw1]
      · rw [BuiltinFramer.pushAll_singleton, hw1]
    · obtain ⟨cs,hcs,hfr,hout,-⟩ := ih (by rw [List.length_drop]; omega) h
      refine ⟨rest.take n :: cs,?_,?_,?_,?_⟩
      · rw [List.flatten_cons, hcs, List.take_append_drop]
      · rw [hfr, hw1]
        rfl
      · rw [hout, hw1, BuiltinFramer.pushAll, List.append_assoc]
      · intro hfit
        omega

/-- A successful call is a sequence of pushes on the framer. -/
theorem prepareReceive_ok {s s' : Receiver} {p : PreparedReceive} {input : List UInt8}
    {rawBatch : Bool} (h : prepareReceive limits fails records input rawBatch s = .ok p s') :
    ∃ chunks : List (List UInt8), chunks.flatten = input ∧
      s'.framer = (s.framer.pushAll chunks).1 ∧ p.messages = (s.framer.pushAll chunks).2 ∧
      (input.length ≤ min 4096 (limits.maxFrameBytes - s.framer.buffer.length) →
        chunks.length ≤ 1) := by
  unfold prepareReceive at h
  split at h
  · rename_i hb
    cases h
    unfold prepareBody at hb
    obtain ⟨_,s1,h1,hb⟩ := bind_eq_ok.mp hb
    obtain ⟨_,s2,h2,hb⟩ := bind_eq_ok.mp hb
    obtain ⟨_,s3,h3,hb⟩ := bind_eq_ok.mp hb
    cases h3
    obtain ⟨_,s4,h4,hb⟩ := bind_eq_ok.mp hb
    obtain ⟨_,s5,h5,hb⟩ := bind_eq_ok.mp hb
    obtain ⟨_,s6,h6,hb⟩ := bind_eq_ok.mp hb
    obtain ⟨⟨w,out⟩,s7,h7,hb⟩ := bind_eq_ok.mp hb
    cases hb
    have hk1 : s1.framer = s.framer := by
      split at h1
      · have hk := (KeepsFramer.retainReceived limits fails records input).ok h1
        exact hk
      · cases h1
        rfl
    have hk2 := (KeepsFramer.chargeStorage limits fails).ok h2
    obtain ⟨chunks,hc,hw,hout,hone⟩ := stageLoop_ok le_rfl h7
    dsimp only at hw hout hone
    rw [hk2, hk1] at hw hout hone
    exact ⟨chunks,hc,hw,hout,hone⟩
  · cases h

/-- Staged and direct receive hand over the same messages and leave the framer in the
same state, when nothing has to be given up or the input goes in at once. -/
theorem receiveStaged_agrees {s : Receiver} {input : List UInt8} {rawBatch callback : Bool}
    {out : List (List UInt8)} {a : BuiltinFramer} (hr : s.framer.Reachable)
    (h : receiveStaged limits fails records callback input rawBatch s = some (out,a))
    (hcalm : s.framer.Calm input ∨
      input.length ≤ min 4096 (limits.maxFrameBytes - s.framer.buffer.length)) :
    out = (if callback then (s.framer.pushBytes input).2 else []) ∧
    a.Same (s.framer.pushBytes input).1 := by
  unfold receiveStaged at h
  split at h
  · rename_i p s' hp
    cases h
    obtain ⟨chunks,rfl,hf,hm,hone⟩ := prepareReceive_ok hp
    rw [PreparedReceive.deliver, hm, hf]
    obtain hc | hfit := hcalm
    · obtain ⟨h1,h2⟩ := BuiltinFramer.pushAll_same hr hc
      rw [h1]
      exact ⟨rfl,h2⟩
    · have hl := hone hfit
      match chunks, hl with
      | [], _ =>
        rw [List.flatten_nil, BuiltinFramer.pushBytes_nil hr]
        exact ⟨rfl,.refl _⟩
      | [c], _ =>
        rw [BuiltinFramer.pushAll_singleton, List.flatten_singleton]
        exact ⟨rfl,.refl _⟩
  · cases h

end Staging

/-- A receiver whose framer is new and owns no storage. -/
def freshReceiver (a : BuiltinFramer) : Receiver := ⟨0,none,a.reset,0,0,0⟩

def smallLimits : ReceiveLimits := ⟨64,8,1,by simp,by simp,by simp⟩

/-- Nine bytes go through storage for eight in two pushes. -/
theorem receiveStaged_agrees_lines :
    let a : BuiltinFramer := .line (LineFramer.make [13,10] false 3) .reset
    ∃ b, receiveStaged smallLimits (fun _ => false) 0 true [97,97,13,10,98,98,98,13,10] false
        (freshReceiver a) = some ([[97,97],[98,98,98]],b) ∧
      b.Same (a.pushBytes [97,97,13,10,98,98,98,13,10]).1 := by
  intro a
  have h : receiveStaged smallLimits (fun _ => false) 0 true [97,97,13,10,98,98,98,13,10] false
      (freshReceiver a) = some ([[97,97],[98,98,98]],a) := by decide +kernel
  exact ⟨a,h,(receiveStaged_agrees ⟨[],rfl⟩ h (.inl (.inr ⟨rfl,by decide,by decide⟩))).2⟩

/-- What an overflow or a corrupt header gives up depends on the cuts, and so does the
scan index: a delimiter that is split in discard mode is missed, a reset drops only
what was pushed so far, and a begun packet is scanned once or twice. -/
theorem receiveStaged_differs :
    let staged := fun a input =>
      receiveStaged smallLimits (fun _ => false) 0 true input false (freshReceiver a)
    (let a : BuiltinFramer := .line (LineFramer.make [13,10] false 3) .reset
      let input := [97,97,97,97,97,97,97,13,10,98,98,13,10]
      (staged a input).map Prod.fst = some [] ∧ (a.pushBytes input).2 = [[98,98]]) ∧
    (let a : BuiltinFramer := .lengthPrefix ⟨1,.big,2,false,by simp,by simp⟩ []
      let input := [9,0,0,0,0,0,0,0,1,7]
      (staged a input).map Prod.fst = some [[7]] ∧ (a.pushBytes input).2 = []) ∧
    (let f : PacketFramer := ⟨[2],[3],9,by simp⟩
      let input := [0,0,0,0,0,0,0,2,9]
      (staged (.packet f .reset) input).map Prod.snd = some (.packet f ⟨.collect,[2,9],2⟩) ∧
        ((BuiltinFramer.packet f .reset).pushBytes input).1 = .packet f ⟨.collect,[2,9],1⟩) := by
  refine ⟨⟨?_,?_⟩,⟨?_,?_⟩,⟨?_,?_⟩⟩ <;> decide +kernel

end Wirestead.Wrapper
