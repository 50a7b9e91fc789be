import Mathlib

/-! # Computations that may throw

A computation returns a value or throws, and both leave a state behind. `Meets` is the
triple of a precondition, what holds after a return and what holds after a throw.
`Together` compares two computations that return together and throw together.
-/
namespace Wirestead.Calls
variable {ε σ α β : Type}

theorem bind_ok {x : EStateM ε σ α} {k : α → EStateM ε σ β} {s t : σ} {a : α} (h : x s = .ok a t) :
    (x >>= k) s = k a t := by
  change EStateM.bind x k s = k a t
  simp only [EStateM.bind, h]

theorem bind_error {x : EStateM ε σ α} {k : α → EStateM ε σ β} {s t : σ} {e : ε}
    (h : x s = .error e t) : (x >>= k) s = .error e t := by
  change EStateM.bind x k s = .error e t
  simp only [EStateM.bind, h]

/-- The rest of a computation matters at what the first part returns. -/
theorem bind_congr_ok {x : EStateM ε σ α} {k l : α → EStateM ε σ β}
    (h : ∀ s a t, x s = .ok a t → k a = l a) : x >>= k = x >>= l := by
  funext s
  cases hx : x s with
  | ok a t => rw [bind_ok hx, bind_ok hx, h s a t hx]
  | error e t => rw [bind_error hx, bind_error hx]

/-- The exception of a run that threw, and the state it left. -/
def thrown : EStateM.Result ε σ α → Option (ε × σ)
  | .ok _ _ => none
  | .error e s => some (e,s)

theorem thrown_eq_some {r : EStateM.Result ε σ α} {e : ε} {s : σ} :
    thrown r = some (e,s) ↔ r = .error e s := by
  cases r <;> simp [thrown]

def Meets (P : σ → Prop) (x : EStateM ε σ α) (Q : α → σ → Prop) (R : ε → σ → Prop) : Prop :=
  ∀ s, P s → match x s with
    | .ok a t => Q a t
    | .error e t => R e t

namespace Meets
variable {P P' : σ → Prop} {Q Q' : α → σ → Prop} {R R' : ε → σ → Prop} {x : EStateM ε σ α}

/-- Reading a triple off a run that threw. -/
theorem error (h : Meets P x Q R) {s t : σ} {e : ε} (hs : P s) (he : x s = .error e t) : R e t := by
  have := h s hs
  rwa [he] at this

theorem weaken (h : Meets P x Q R) (hp : ∀ s, P' s → P s) (hq : ∀ a s, Q a s → Q' a s)
    (hr : ∀ e s, R e s → R' e s) : Meets P' x Q' R' := by
  intro s hs
  have := h s (hp s hs)
  cases he : x s with
  | ok a t =>
    rw [he] at this
    exact hq a t this
  | error e t =>
    rw [he] at this
    exact hr e t this

theorem pure {a : α} (h : ∀ s, P s → Q a s) : Meets P (Pure.pure a : EStateM ε σ α) Q R :=
  fun s hs => h s hs

theorem throw {e : ε} (h : ∀ s, P s → R e s) : Meets P (MonadExcept.throw e : EStateM ε σ α) Q R :=
  fun s hs => h s hs

theorem update {f : σ → σ} {Q : PUnit → σ → Prop} (h : ∀ s, P s → Q ⟨⟩ (f s)) :
    Meets P (modify f : EStateM ε σ PUnit) Q R := fun s hs => h s hs

theorem get {Q : σ → σ → Prop} (h : ∀ s, P s → Q s s) :
    Meets P (MonadState.get : EStateM ε σ σ) Q R := fun s hs => h s hs

theorem bind {k : α → EStateM ε σ β} {M : α → σ → Prop} {Q : β → σ → Prop}
    (hx : Meets P x M R) (hk : ∀ a, Meets (M a) (k a) Q R) : Meets P (x >>= k) Q R := by
  intro s hs
  have h := hx s hs
  cases he : x s with
  | error e t =>
    rw [he] at h
    rw [bind_error he]
    exact h
  | ok a t =>
    rw [he] at h
    rw [bind_ok he]
    exact hk a t h

theorem ite {c : Prop} [Decidable c] {y : EStateM ε σ α} (hx : c → Meets P x Q R)
    (hy : ¬c → Meets P y Q R) : Meets P (if c then x else y) Q R := by
  split
  · exact hx ‹c›
  · exact hy ‹¬c›

/-- A condition that does not mention the state. -/
theorem assuming {p : Prop} (h : p → Meets P x Q R) : Meets (fun s => p ∧ P s) x Q R :=
  fun s hs => h hs.1 s hs.2

/-- What is known of every value returned. -/
theorem returning (h : Meets P x Q R) {F : α → Prop} (hf : ∀ s a t, x s = .ok a t → F a) :
    Meets P x (fun a s => F a ∧ Q a s) R := by
  intro s hs
  have := h s hs
  cases he : x s with
  | ok a t =>
    rw [he] at this
    exact ⟨hf s a t he,this⟩
  | error e t =>
    rw [he] at this
    exact this

end Meets

section Parts
variable {τ : Type}

/-- A computation on the first part of a state. -/
def onFirst (x : EStateM ε σ α) : EStateM ε (σ × τ) α := fun s =>
  match x s.1 with
  | .ok a t => .ok a (t,s.2)
  | .error e t => .error e (t,s.2)

theorem onFirst_ok {x : EStateM ε σ α} {s t : σ × τ} {a : α} (h : onFirst x s = .ok a t) :
    x s.1 = .ok a t.1 := by
  unfold onFirst at h
  cases hx : x s.1 with
  | ok b u =>
    rw [hx] at h
    cases h
    rfl
  | error e u =>
    rw [hx] at h
    cases h

theorem Meets.onFirst {P : σ → Prop} {Q : α → σ → Prop} {R : ε → σ → Prop} {x : EStateM ε σ α}
    (h : Meets P x Q R) (F : τ → Prop) :
    Meets (fun s => P s.1 ∧ F s.2) (Calls.onFirst x) (fun a s => Q a s.1 ∧ F s.2)
      (fun e s => R e s.1 ∧ F s.2) := by
  intro s hs
  have := h s.1 hs.1
  unfold Calls.onFirst
  cases he : x s.1 with
  | ok a t =>
    rw [he] at this
    exact ⟨this,hs.2⟩
  | error e t =>
    rw [he] at this
    exact ⟨this,hs.2⟩

/-- A computation seen on the first part alone; `t` is the second one before it. -/
def forget (y : EStateM ε (σ × τ) α) (t : τ) : EStateM ε σ α := fun s =>
  match y (s,t) with
  | .ok a u => .ok a u.1
  | .error e u => .error e u.1

@[simp] theorem forget_pure (a : α) (t : τ) : forget (pure a : EStateM ε (σ × τ) α) t = pure a := rfl

@[simp] theorem forget_onFirst_bind (x : EStateM ε σ α) (k : α → EStateM ε (σ × τ) β) (t : τ) :
    forget (onFirst x >>= k) t = x >>= fun a => forget (k a) t := by
  funext s
  cases h : x s with
  | ok a u =>
    have hf : onFirst x (s,t) = .ok a (u,t) := by simp only [onFirst, h]
    rw [bind_ok h]
    simp only [forget, bind_ok hf]
  | error e u =>
    have hf : onFirst x (s,t) = .error e (u,t) := by simp only [onFirst, h]
    rw [bind_error h]
    simp only [forget, bind_error hf]

/-- The second part may change on the way when the rest does not depend on it. -/
theorem forget_bind {y : EStateM ε (σ × τ) α} {k : α → EStateM ε (σ × τ) β}
    {l : α → EStateM ε σ β} (h : ∀ a t, forget (k a) t = l a) (t : τ) :
    forget (y >>= k) t = forget y t >>= l := by
  funext s
  cases hy : y (s,t) with
  | ok a u =>
    have hf : forget y t s = .ok a u.1 := by simp only [forget, hy]
    rw [bind_ok hf, ← h a u.2]
    simp only [forget, bind_ok hy]
  | error e u =>
    have hf : forget y t s = .error e u.1 := by simp only [forget, hy]
    rw [bind_error hf]
    simp only [forget, bind_error hy]

/-- The second part collects what is noted. -/
def note (x : τ) : EStateM ε (σ × List τ) PUnit := modify (fun s => (s.1,s.2 ++ [x]))

theorem Meets.note {P : σ → Prop} {R : ε → σ × List τ → Prop} {F : List τ → Prop} {x : τ}
    (h : ∀ l, F l → F (l ++ [x])) :
    Meets (fun s => P s.1 ∧ F s.2) (Calls.note x) (fun _ s => P s.1 ∧ F s.2) R :=
  Meets.update (fun s hs => ⟨hs.1,h s.2 hs.2⟩)

@[simp] theorem forget_note_bind (x : τ) (k : PUnit → EStateM ε (σ × List τ) β) (t : List τ) :
    forget (note x >>= k) t = forget (k ⟨⟩) (t ++ [x]) := rfl

end Parts

/-- From related states both return, with related values and states, or both throw. -/
def Together {τ : Type} (P : σ → τ → Prop) (x : EStateM ε σ α) (y : EStateM ε τ β)
    (Q : α → β → σ → τ → Prop) : Prop :=
  ∀ s t, P s t → match x s, y t with
    | .ok a s', .ok b t' => Q a b s' t'
    | .error _ _, .error _ _ => True
    | _, _ => False

namespace Together
variable {τ α' β' : Type} {P : σ → τ → Prop} {x : EStateM ε σ α} {y : EStateM ε τ β}

theorem weaken {P' : σ → τ → Prop} {Q Q' : α → β → σ → τ → Prop} (h : Together P x y Q)
    (hp : ∀ s t, P' s t → P s t) (hq : ∀ a b s t, Q a b s t → Q' a b s t) : Together P' x y Q' := by
  intro s t hs
  have := h s t (hp s t hs)
  cases hx : x s with
  | ok a s' =>
    cases hy : y t with
    | ok b t' =>
      rw [hx, hy] at this
      exact hq a b s' t' this
    | error e t' =>
      rw [hx, hy] at this
      exact this.elim
  | error e s' =>
    cases hy : y t with
    | ok b t' =>
      rw [hx, hy] at this
      exact this.elim
    | error e' t' => trivial

theorem pure {a : α} {b : β} {Q : α → β → σ → τ → Prop} (h : ∀ s t, P s t → Q a b s t) :
    Together P (Pure.pure a : EStateM ε σ α) (Pure.pure b : EStateM ε τ β) Q :=
  fun s t hs => h s t hs

theorem get {Q : σ → τ → σ → τ → Prop} (h : ∀ s t, P s t → Q s t s t) :
    Together P (MonadState.get : EStateM ε σ σ) (MonadState.get : EStateM ε τ τ) Q :=
  fun s t hs => h s t hs

theorem update {f : σ → σ} {g : τ → τ} {Q : PUnit → PUnit → σ → τ → Prop}
    (h : ∀ s t, P s t → Q ⟨⟩ ⟨⟩ (f s) (g t)) :
    Together P (modify f : EStateM ε σ PUnit) (modify g : EStateM ε τ PUnit) Q :=
  fun s t hs => h s t hs

theorem bind {k : α → EStateM ε σ α'} {l : β → EStateM ε τ β'} {M : α → β → σ → τ → Prop}
    {Q : α' → β' → σ → τ → Prop} (hxy : Together P x y M)
    (hkl : ∀ a b, Together (M a b) (k a) (l b) Q) : Together P (x >>= k) (y >>= l) Q := by
  intro s t hs
  have h := hxy s t hs
  cases hx : x s with
  | ok a s' =>
    cases hy : y t with
    | ok b t' =>
      rw [hx, hy] at h
      rw [bind_ok hx, bind_ok hy]
      exact hkl a b s' t' h
    | error e t' =>
      rw [hx, hy] at h
      exact h.elim
  | error e s' =>
    cases hy : y t with
    | ok b t' =>
      rw [hx, hy] at h
      exact h.elim
    | error e' t' =>
      rw [bind_error hx, bind_error hy]
      trivial

end Together
end Wirestead.Calls
