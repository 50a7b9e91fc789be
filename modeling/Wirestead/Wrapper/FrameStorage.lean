import Wirestead.Framer.Appends
import Wirestead.Wrapper.RefusedReceive

/-! # Framer storage is covered by its charge

Here the capacity of the clone's buffer follows what a push appends: an append within
the capacity keeps it, one beyond it moves the storage to a size of the library's
choice. A copied vector has the capacity of its size, and `reserve` on an empty one gives
what is asked for. The clone is noted at every boundary of the loop.
-/
namespace Wirestead.Wrapper
open Calls Framer

/-- The capacity after appends to these sizes, one after the other. -/
def capacityAfter (regrow : ℕ → ℕ → ℕ) (capacity : ℕ) (sizes : List ℕ) : ℕ :=
  sizes.foldl (fun current size => if size ≤ current then current else regrow current size) capacity

abbrev Traced := EStateM ReceiveFailure (Receiver × List Work)

section Calls
variable (limits : ReceiveLimits) (fails : ℕ → Bool) (records : ℕ) (regrow : ℕ → ℕ → ℕ)

/-- `stageLoop` with the capacity that the push leaves. -/
def stageLoopTraced : ℕ → Work → List UInt8 → List (List UInt8) → Traced (Work × List (List UInt8))
  | 0, w, _, out => do
    note w
    pure (w,out)
  | fuel + 1, w, rest, out => do
    note w
    if rest = [] then pure (w,out)
    else if limits.maxFrameBytes ≤ w.framer.buffer.length then throw (.overflow .frameLimit)
    else do
      let used := w.framer.buffer.length
      let n := min rest.length (min (limits.maxFrameBytes - used) 4096)
      let w ← onFirst (growWork limits fails w (used + n))
      note w
      let r := w.framer.pushBytes (rest.take n)
      onFirst (stageMessages limits fails records r.2)
      stageLoopTraced fuel
        { w with framer := r.1,
                 capacity := capacityAfter regrow w.capacity (w.framer.appends (rest.take n)) }
        (rest.drop n) (out ++ r.2)

def prepareBodyTraced (input : List UInt8) (rawBatch : Bool) : Traced PreparedReceive := do
  onFirst (if rawBatch then retainReceived limits fails records input else pure ())
  onFirst (chargeStorage limits fails)
  let s ← onFirst get
  onFirst (reserveReceive limits fails s.framer.buffer.length)
  onFirst (allocate fails)
  onFirst (allocate fails)
  let r ← stageLoopTraced limits fails records regrow input.length
    ⟨s.framer,s.framer.buffer.length,s.framer.buffer.length⟩ input []
  onFirst (modify (commit r.1))
  let s ← onFirst get
  onFirst (modify fun s => { s with owned := 0 })
  pure ⟨if rawBatch then some input else none,r.2,s.owned⟩

def prepareReceiveTraced (input : List UInt8) (rawBatch : Bool) : Traced PreparedReceive := fun s =>
  match prepareBodyTraced limits fails records regrow input rawBatch ({ s.1 with owned := 0 },s.2) with
  | .ok p s => .ok p s
  | .error e s => .error e ({ s.1 with used := s.1.used - s.1.owned, owned := 0 },s.2)

/-- `ReceiveState::reset` on the framer: it is reset and its storage is given up, then
the charge. -/
def Receiver.reset (s : Receiver) : Receiver :=
  { s with framer := s.framer.reset, capacity := 0, frameStorage := none,
           used := s.used - s.frameStorage.getD 0 }

/-- What happens to one framer. Between its calls the budget moves for other reasons:
messages are released, other sessions share it. -/
inductive ReceiveCall
  | receive (input : List UInt8) (rawBatch : Bool)
  | reset
  | others (used : ℕ)

def receiveCall (s : Receiver × List Work) : ReceiveCall → Receiver × List Work
  | .receive input rawBatch =>
    match prepareReceiveTraced limits fails records regrow input rawBatch s with
    | .ok _ s => s
    | .error _ s => s
  | .reset => (s.1.reset,s.2)
  | .others used => ({ s.1 with used := used },s.2)

def receiveCalls (s : Receiver × List Work) (calls : List ReceiveCall) : Receiver × List Work :=
  calls.foldl (receiveCall limits fails records regrow) s

end Calls

theorem capacityAfter_eq {regrow : ℕ → ℕ → ℕ} {capacity : ℕ} {sizes : List ℕ}
    (h : ∀ n ∈ sizes, n ≤ capacity) : capacityAfter regrow capacity sizes = capacity := by
  induction sizes with
  | nil => rfl
  | cons n sizes ih =>
    have hn := h n List.mem_cons_self
    simp only [capacityAfter, List.foldl_cons, if_pos hn]
    exact ih (fun m hm => h m (List.mem_cons_of_mem n hm))

/-- What `growWork` makes of the clone: nothing, or storage of a charged size. -/
structure Grown (limits : ReceiveLimits) (w : Work) (needed : ℕ) (w' : Work) : Prop where
  framer : w'.framer = w.framer
  needed_le : needed ≤ w'.capacity
  charge : w.charge = w.capacity → w'.charge = w'.capacity
  le : w.capacity ≤ limits.maxFrameBytes → needed ≤ limits.maxFrameBytes →
    w'.capacity ≤ limits.maxFrameBytes

section Storage
variable {limits : ReceiveLimits} {fails : ℕ → Bool} {records : ℕ} {regrow : ℕ → ℕ → ℕ}

theorem reserveGrowth_ok {target needed n : ℕ} {s s' : Receiver}
    (h : reserveGrowth limits fails target needed s = .ok n s') :
    n = needed ∨ n = target ∧ needed < target := by
  obtain ⟨ok,t,hok,h⟩ := bind_eq_ok.mp h
  cases ok with
  | false =>
    obtain ⟨_,_,-,h⟩ := bind_eq_ok.mp h
    cases h
    exact .inl rfl
  | true =>
    cases h
    split at hok
    · exact .inr ⟨rfl,‹_›⟩
    · cases hok

theorem growWork_grown {w w' : Work} {needed : ℕ} {s s' : Receiver}
    (h : growWork limits fails w needed s = .ok w' s') : Grown limits w needed w' := by
  unfold growWork at h
  split at h
  · cases h
    exact ⟨rfl,‹_›,id,fun h _ => h⟩
  · obtain ⟨n,_,hn,h⟩ := bind_eq_ok.mp h
    obtain ⟨_,_,-,h⟩ := bind_eq_ok.mp h
    obtain ⟨_,_,-,h⟩ := bind_eq_ok.mp h
    cases h
    have hn := reserveGrowth_ok hn
    have ht : growthTarget limits w.capacity needed ≤ limits.maxFrameBytes := Nat.min_le_left _ _
    refine ⟨rfl,?_,fun _ => rfl,fun _ _ => ?_⟩
    · dsimp only
      omega
    · dsimp only
      omega

/-- The push after a growth stays within the storage. -/
theorem Grown.capacity {w w' : Work} {chunk : List UInt8}
    (h : Grown limits w (w.framer.buffer.length + chunk.length) w') :
    capacityAfter regrow w'.capacity (w'.framer.appends chunk) = w'.capacity := by
  apply capacityAfter_eq
  intro n hn
  rw [h.framer] at hn
  exact ((w.framer.pushBytes_le chunk).2 n hn).trans h.needed_le

variable (fails records regrow)

/-- Without the notes the loop is `stageLoop`: no push moves the storage. -/
theorem forget_stageLoopTraced (fuel : ℕ) (w : Work) (rest : List UInt8)
    (out : List (List UInt8)) (t : List Work) :
    forget (stageLoopTraced limits fails records regrow fuel w rest out) t =
      stageLoop limits fails records fuel w rest out := by
  induction fuel generalizing w rest out t with
  | zero => rfl
  | succ fuel ih =>
    unfold stageLoopTraced stageLoop
    rw [forget_note_bind]
    split
    · rfl
    split
    · rfl
    dsimp only
    generalize hn : min rest.length (min (limits.maxFrameBytes - w.framer.buffer.length) 4096) = n
    have hchunk : (rest.take n).length = n := by
      rw [List.length_take]
      omega
    rw [forget_onFirst_bind]
    apply bind_congr_ok
    intro s w' s' hw
    have hg := growWork_grown hw
    rw [← hchunk] at hg
    rw [forget_note_bind, forget_onFirst_bind, hg.capacity]
    simp only [ih]

theorem forget_prepareBodyTraced (input : List UInt8) (rawBatch : Bool) (t : List Work) :
    forget (prepareBodyTraced limits fails records regrow input rawBatch) t =
      prepareBody limits fails records input rawBatch := by
  unfold prepareBodyTraced prepareBody
  simp only [forget_onFirst_bind]
  repeat
    apply bind_congr
    intro _
  rw [← forget_stageLoopTraced fails records regrow _ _ _ _ t]
  apply forget_bind
  intro r t
  simp only [forget_onFirst_bind, forget_pure]

/-- The traced call does what `prepare_receive` does. -/
theorem forget_prepareReceiveTraced (input : List UInt8) (rawBatch : Bool) (t : List Work) :
    forget (prepareReceiveTraced limits fails records regrow input rawBatch) t =
      prepareReceive limits fails records input rawBatch := by
  funext s
  unfold prepareReceive
  rw [← forget_prepareBodyTraced fails records regrow input rawBatch t]
  unfold forget prepareReceiveTraced
  cases prepareBodyTraced limits fails records regrow input rawBatch ({ s with owned := 0 },t) <;> rfl

/-- The framer's storage is what the receive state holds a charge for. -/
structure Stored (limits : ReceiveLimits) (s : Receiver) : Prop where
  fits : s.framer.buffer.length ≤ s.capacity
  charged : s.capacity = s.frameStorage.getD 0
  bounded : s.capacity ≤ limits.maxFrameBytes

/-- The same of the clone and `work_charge`. -/
structure Backed (limits : ReceiveLimits) (w : Work) : Prop where
  fits : w.framer.buffer.length ≤ w.capacity
  charged : w.charge = w.capacity
  bounded : w.capacity ≤ limits.maxFrameBytes

def AllBacked (limits : ReceiveLimits) (trace : List Work) : Prop := ∀ w ∈ trace, Backed limits w

theorem Backed.noted {w : Work} (hw : Backed limits w) (trace : List Work)
    (h : AllBacked limits trace) : AllBacked limits (trace ++ [w]) := by
  intro v hv
  rcases List.mem_append.mp hv with hv | hv
  · exact h v hv
  · rwa [List.mem_singleton.mp hv]

theorem Grown.backed {w w' : Work} {needed : ℕ} (h : Grown limits w needed w')
    (hw : Backed limits w) (hb : w.framer.buffer.length ≤ needed)
    (hn : needed ≤ limits.maxFrameBytes) : Backed limits w' where
  fits := by
    have := h.needed_le
    rw [h.framer]
    omega
  charged := h.charge hw.charged
  bounded := h.le hw.bounded hn

/-- A push within the storage that was made for it. -/
theorem Grown.push {w w' : Work} {chunk : List UInt8}
    (h : Grown limits w (w.framer.buffer.length + chunk.length) w') (hw : Backed limits w') :
    Backed limits { w' with framer := (w'.framer.pushBytes chunk).1 } := by
  refine ⟨?_,hw.charged,hw.bounded⟩
  have hp := (w'.framer.pushBytes_le chunk).1
  rw [h.framer] at hp
  dsimp only
  rw [h.framer]
  exact hp.trans h.needed_le

/-- Every boundary that is noted has its storage covered, also before a throw. -/
theorem stageLoopTraced_backed {b : Receiver} (fuel : ℕ) {w : Work} (hw : Backed limits w)
    (rest : List UInt8) (out : List (List UInt8)) :
    Meets (fun s => Upto b w.charge s.1 ∧ AllBacked limits s.2)
      (stageLoopTraced limits fails records regrow fuel w rest out)
      (fun r s => Backed limits r.1 ∧ Upto b r.1.charge s.1 ∧ AllBacked limits s.2)
      (fun _ s => Upto b 0 s.1 ∧ AllBacked limits s.2) := by
  induction fuel generalizing w rest out with
  | zero =>
    apply (Meets.note hw.noted).bind
    intro _
    exact Meets.pure (fun s h => ⟨hw,h⟩)
  | succ fuel ih =>
    unfold stageLoopTraced
    apply (Meets.note hw.noted).bind
    intro _
    apply Meets.ite
    · intro _
      exact Meets.pure (fun s h => ⟨hw,h⟩)
    intro _
    apply Meets.ite
    · intro _
      exact Meets.throw (fun s h => ⟨h.1.mono (Nat.zero_le _),h.2⟩)
    intro hfull
    dsimp only
    generalize hn : min rest.length (min (limits.maxFrameBytes - w.framer.buffer.length) 4096) = n
    have hchunk : (rest.take n).length = n := by
      rw [List.length_take]
      omega
    apply (((Upto.growWork w _).onFirst (AllBacked limits)).returning
      (F := Grown limits w (w.framer.buffer.length + n)) ?_).bind
    · intro w'
      apply Meets.assuming
      intro hg
      have hw' : Backed limits w' := hg.backed hw (Nat.le_add_right _ _) (by omega)
      rw [← hchunk] at hg
      apply (Meets.note hw'.noted).bind
      intro _
      apply ((Upto.stageMessages _).onFirst _).bind
      intro _
      rw [hg.capacity]
      exact ih (hg.push hw') (rest.drop n) _
    · intro s w' s' h
      exact growWork_grown (onFirst_ok h)

/-- Storage that is charged already is not charged again. -/
theorem Stored.storageCharged {b : Receiver} (hb : Stored limits b) : b.storageCharged = b := by
  unfold Receiver.storageCharged
  split
  · rename_i hn
    have := hb.charged
    simp only [hn.1, Option.getD_none] at this
    exact absurd this hn.2
  · rfl

/-- The clone and its charge become the state's. -/
theorem Backed.commit {b : Receiver} {w : Work} (h : Backed limits w) :
    Meets (Upto b w.charge) (modify (commit w) : Receive PUnit) (fun _ => Stored limits)
      (fun _ => Upto b 0) :=
  Meets.update (fun _ _ => ⟨h.fits,h.charged.symm,h.bounded⟩)

/-- A call keeps the storage covered, whether it returns or throws. -/
theorem prepareBodyTraced_stored {b : Receiver} (hb : Stored limits b) (input : List UInt8)
    (rawBatch : Bool) :
    Meets (fun s => Upto b 0 s.1 ∧ AllBacked limits s.2)
      (prepareBodyTraced limits fails records regrow input rawBatch)
      (fun _ s => Stored limits s.1 ∧ AllBacked limits s.2)
      (fun _ s => Upto b 0 s.1 ∧ AllBacked limits s.2) := by
  unfold prepareBodyTraced
  apply Meets.bind (M := fun _ s => Upto b 0 s.1 ∧ AllBacked limits s.2)
  · apply Meets.onFirst
    apply Meets.ite
    · intro _
      exact Upto.retainReceived input
    · intro _
      exact Meets.pure (fun s h => h)
  intro _
  have hcharge : Meets (Upto b 0) (Wrapper.chargeStorage limits fails) _ _ := Upto.chargeStorage
  rw [hb.storageCharged] at hcharge
  apply (hcharge.onFirst _).bind
  intro _
  have hget : Meets (fun s => Upto b 0 s.1 ∧ AllBacked limits s.2) (onFirst get : Traced Receiver)
      (fun r s => r.framer = b.framer ∧ Upto b 0 s.1 ∧ AllBacked limits s.2)
      (fun _ s => Upto b 0 s.1 ∧ AllBacked limits s.2) := fun s h => ⟨h.1.framer,h⟩
  apply hget.bind
  intro r
  apply Meets.assuming
  intro hr
  have hw : Backed limits ⟨r.framer,r.framer.buffer.length,r.framer.buffer.length⟩ := by
    refine ⟨le_rfl,rfl,?_⟩
    rw [hr]
    exact hb.fits.trans hb.bounded
  apply ((Upto.reserveReceive r.framer.buffer.length).onFirst _).bind
  intro _
  apply (Upto.allocate.onFirst _).bind
  intro _
  apply (Upto.allocate.onFirst _).bind
  intro _
  apply ((stageLoopTraced_backed fails records regrow input.length hw input []).weaken
    (fun s h => ⟨h.1.mono (Nat.le_add_left _ _),h.2⟩) (fun _ _ h => h) (fun _ _ h => h)).bind
  intro w
  apply Meets.assuming
  intro hbacked
  apply (hbacked.commit.onFirst _).bind
  intro _ s h
  exact ⟨⟨h.1.fits,h.1.charged,h.1.bounded⟩,h.2⟩

theorem Upto.stored {b s : Receiver} {c : ℕ} (h : Upto b c s) (hb : Stored limits b) :
    Stored limits s where
  fits := by
    rw [h.framer, h.capacity]
    exact hb.fits
  charged := by
    rw [h.capacity, h.frameStorage]
    exact hb.charged
  bounded := by
    rw [h.capacity]
    exact hb.bounded

theorem Stored.reset {s : Receiver} : Stored limits s.reset where
  fits := by
    cases h : s.framer <;> simp [Receiver.reset, h, BuiltinFramer.reset, BuiltinFramer.buffer,
      LineState.reset, PacketState.reset]
  charged := rfl
  bounded := Nat.zero_le _

theorem prepareReceiveTraced_stored (input : List UInt8) (rawBatch : Bool) :
    Meets (fun s => Stored limits s.1 ∧ AllBacked limits s.2)
      (prepareReceiveTraced limits fails records regrow input rawBatch)
      (fun _ s => Stored limits s.1 ∧ AllBacked limits s.2)
      (fun _ s => Stored limits s.1 ∧ AllBacked limits s.2) := by
  intro s ⟨hs,ht⟩
  have hb : Stored limits { s.1 with owned := 0 } := ⟨hs.fits,hs.charged,hs.bounded⟩
  have h := prepareBodyTraced_stored fails records regrow hb input rawBatch
    ({ s.1 with owned := 0 },s.2) ⟨⟨rfl,rfl,rfl,rfl,le_rfl⟩,ht⟩
  unfold prepareReceiveTraced
  cases he : prepareBodyTraced limits fails records regrow input rawBatch
      ({ s.1 with owned := 0 },s.2) with
  | ok p t =>
    rw [he] at h
    exact h
  | error e t =>
    rw [he] at h
    have hst := h.1.stored hb
    exact ⟨⟨hst.fits,hst.charged,hst.bounded⟩,h.2⟩

/-- One call, whatever it is and however it ends. -/
theorem receiveCall_stored {s : Receiver × List Work} (hs : Stored limits s.1)
    (ht : AllBacked limits s.2) (call : ReceiveCall) :
    Stored limits (receiveCall limits fails records regrow s call).1 ∧
    AllBacked limits (receiveCall limits fails records regrow s call).2 := by
  cases call with
  | receive input rawBatch =>
    have h := prepareReceiveTraced_stored fails records regrow input rawBatch s ⟨hs,ht⟩
    unfold receiveCall
    cases he : prepareReceiveTraced limits fails records regrow input rawBatch s with
    | ok p t =>
      rw [he] at h
      simpa only [he] using h
    | error e t =>
      rw [he] at h
      simpa only [he] using h
  | reset => exact ⟨Stored.reset,ht⟩
  | others used => exact ⟨⟨hs.fits,hs.charged,hs.bounded⟩,ht⟩

theorem receiveCalls_stored (calls : List ReceiveCall) {s : Receiver × List Work}
    (hs : Stored limits s.1) (ht : AllBacked limits s.2) :
    Stored limits (receiveCalls limits fails records regrow s calls).1 ∧
    AllBacked limits (receiveCalls limits fails records regrow s calls).2 := by
  induction calls generalizing s with
  | nil => exact ⟨hs,ht⟩
  | cons call calls ih =>
    obtain ⟨h1,h2⟩ := receiveCall_stored fails records regrow hs ht call
    exact ih h1 h2

/-- From a new framer on, after any calls the capacity of its buffer is what
`frame_storage` holds and within the limit, and at every boundary inside them the
clone's capacity was covered by `work_charge`. -/
theorem receiveCalls_covered (limits : ReceiveLimits) (fails : ℕ → Bool) (records : ℕ)
    (regrow : ℕ → ℕ → ℕ) (a : BuiltinFramer) (calls : List ReceiveCall) :
    let s := receiveCalls limits fails records regrow (freshReceiver a,[]) calls
    s.1.capacity ≤ limits.maxFrameBytes ∧ s.1.capacity = s.1.frameStorage.getD 0 ∧
    ∀ w ∈ s.2, w.capacity ≤ w.charge := by
  have hfresh : Stored limits (freshReceiver a) := by
    refine ⟨?_,rfl,Nat.zero_le _⟩
    cases a <;> exact le_rfl
  obtain ⟨hs,ht⟩ := receiveCalls_stored fails records regrow calls (s := (freshReceiver a,[]))
    hfresh (by simp [AllBacked])
  exact ⟨hs.bounded,hs.charged,fun w hw => (ht w hw).charged.ge⟩

end Storage
end Wirestead.Wrapper
