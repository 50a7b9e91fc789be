import Wirestead.Framer.Resetting

/-! # Resets inside the delimiter framer's callback

A piece that is scanned in the buffer ends at the reset. A piece that is processed
without copying, and the pieces after either, do not see it.
-/
namespace Wirestead.Framer.LineFramer
open Words
variable (f : LineFramer)

/-- Scanning the caller's bytes goes on after a reset. -/
theorem scanLoopResetting_caller (data : List UInt8) (fuel p c k : ℕ) (s : LineState) :
    f.scanLoopResetting false data fuel p c k s = some ((f.scanLoop data fuel p c).1,
      .pass .reset k s ((f.scanLoop data fuel p c).2.map Prod.snd)) := by
  induction fuel generalizing p c k s with
  | zero => rfl
  | succ fuel ih =>
    unfold scanLoopResetting scanLoop
    rw [if_neg (by simp)]
    split
    · rfl
    cases f.find (data.drop c) with
    | none => rfl
    | some i =>
      dsimp only
      split
      · exact ih _ _ _ _
      · rw [if_neg (by simp), ih]
        rfl

/-- Scanning the buffer itself ends at a reset, with nothing left to erase. -/
theorem scanLoopResetting_own (data : List UInt8) (fuel p c k : ℕ) {s : LineState}
    (hl : data.length ≤ s.buffer.length) (hb : s.buffer ≠ []) :
    f.scanLoopResetting true data fuel p c k s =
      some (if 1 ≤ k ∧ k ≤ (f.scanLoop data fuel p c).2.length then 0
          else (f.scanLoop data fuel p c).1,
        .cut .reset k s ((f.scanLoop data fuel p c).2.map Prod.snd)) := by
  have hdone : ∀ k : ℕ, ¬(1 ≤ k ∧ k ≤ 0) := by omega
  have hspan := Nat.not_lt.mpr hl
  induction fuel generalizing p c k with
  | zero =>
    have h0 : ¬(1 ≤ k ∧ k ≤ (f.scanLoop data 0 p c).2.length) := hdone k
    rw [if_neg h0]
    rfl
  | succ fuel ih =>
    by_cases hc : data.length < c
    · simp only [scanLoopResetting, scanLoop, true_and, if_neg hspan, if_pos hc, List.length_nil,
        if_neg (hdone k), List.map_nil, Pushed.cut]
    cases hs : f.find (data.drop c) with
    | none =>
      simp only [scanLoopResetting, scanLoop, true_and, if_neg hspan, if_neg hc, hs,
        List.length_nil, if_neg (hdone k), List.map_nil, Pushed.cut]
    | some i =>
      simp only [scanLoopResetting, scanLoop, true_and, if_neg hspan, if_neg hc, hs]
      split
      · exact ih _ _ _
      by_cases h1 : k = 1
      · subst h1
        simp [onMessage, LineState.reset, Pushed.cut]
      · have hsame : onMessage .reset k s = s := if_neg h1
        rw [hsame, if_neg hb, ih]
        simp only [Option.map_some, List.map_cons, List.length_cons, Pushed.cut, if_neg h1,
          Option.some.injEq, Prod.mk.injEq, and_true]
        split_ifs <;> first | rfl | omega

theorem scanLoop_le (data : List UInt8) (fuel p c : ℕ) (hp : p ≤ data.length) :
    (f.scanLoop data fuel p c).1 ≤ data.length := by
  induction fuel generalizing p c with
  | zero => exact hp
  | succ fuel ih =>
    unfold scanLoop
    split
    · exact hp
    cases h : f.find (data.drop c) with
    | none => exact hp
    | some i =>
      have hl := search_lt (f.find_search h).2
      rw [List.length_drop] at hl
      dsimp only
      split <;> exact ih _ _ (by omega)

/-- A piece with such a callback, from the piece without it. -/
def interrupted (k : ℕ) (s : LineState) (r : LineState × List Message) : Pushed LineState :=
  if s.buffer = [] then ⟨r.1,k - r.2.length,r.2.map Prod.snd⟩
  else .cut .reset k r.1 (r.2.map Prod.snd)

section Interrupted
variable {k : ℕ} {s : LineState} {r : LineState × List Message}

/-- Without a `k`-th message there is no reset. -/
theorem interrupted_of_not (h : ¬(1 ≤ k ∧ k ≤ r.2.length)) :
    interrupted k s r = ⟨r.1,k - r.2.length,r.2.map Prod.snd⟩ := by
  unfold interrupted
  rw [Pushed.cut_of_not (by simpa using h), List.length_map, ite_self]

theorem interrupted_of_empty (hb : s.buffer = []) (hle : k ≤ r.2.length) :
    interrupted k s r = ⟨r.1,0,r.2.map Prod.snd⟩ := by
  rw [interrupted, if_pos hb, Nat.sub_eq_zero_of_le hle]

theorem interrupted_of_buffered (hb : s.buffer ≠ []) (hk : 1 ≤ k) (hle : k ≤ r.2.length) :
    interrupted k s r = ⟨.reset,0,(r.2.map Prod.snd).take k⟩ := by
  rw [interrupted, if_neg hb, Pushed.cut_of_le hk (by simpa using hle)]

end Interrupted

/-- Where the messages come from in the stream makes no difference. -/
theorem interrupted_congr {k : ℕ} {s t : LineState} {q r : LineState × List Message}
    (hb : s.buffer = t.buffer) (h : SameBytes q r) : interrupted k s q = interrupted k t r := by
  have hl : q.2.length = r.2.length := by simpa using congrArg List.length h.2
  rw [interrupted, interrupted, hb, h.1, h.2, hl]

theorem pushSyncedResetting_eq (k : ℕ) {s : LineState} (hd : s.discarding = false)
    (data : List UInt8) :
    f.pushSyncedResetting k s data = some (interrupted k s (f.pushSynced 0 s data)) := by
  obtain ⟨idx,buffer,discarding⟩ := s
  dsimp only at hd
  subst hd
  by_cases hb : buffer = []
  · subst hb
    have hscan : f.scanAndProcessResetting false data 0 k ⟨idx,[],false⟩ =
        some ((f.scanAndProcess data 0).1,
          .pass .reset k ⟨idx,[],false⟩ ((f.scanAndProcess data 0).2.map Prod.snd)) :=
      f.scanLoopResetting_caller _ _ _ _ _ _
    rw [pushSyncedResetting, if_pos rfl, hscan, pushSynced, if_pos rfl, interrupted, if_pos rfl]
    generalize f.scanAndProcess data 0 = r
    rw [Pushed.pass_eq]
    -- the members before and after the reset differ in the scan index alone
    have hst : ∀ c : Prop, [Decidable c] → ∃ i : ℕ,
        (if c then LineState.reset else ⟨idx,[],false⟩) = ⟨i,[],false⟩ := by
      intro c _
      split
      · exact ⟨0,rfl⟩
      · exact ⟨idx,rfl⟩
    obtain ⟨i,hi⟩ := hst (1 ≤ k ∧ k ≤ (r.2.map Prod.snd).length)
    rw [hi]
    by_cases hlt : r.1 < data.length
    · simp [hlt, map_snd_shift, length_shift]
    · simp [hlt, map_snd_shift, length_shift]
  · have hne : appendBytes buffer data 0 ≠ [] := by
      unfold appendBytes
      split
      · exact hb
      · simp [hb]
    rw [pushSyncedResetting, if_neg hb, pushSynced, if_neg hb, interrupted, if_neg hb]
    dsimp only
    generalize appendBytes buffer data 0 = whole at hne ⊢
    generalize (if f.delimiter.length ≤ idx then idx - (f.delimiter.length - 1) else 0) = start
    have hscan : f.scanAndProcessResetting true whole start k ⟨idx,whole,false⟩ =
        some (if 1 ≤ k ∧ k ≤ (f.scanAndProcess whole start).2.length then 0
            else (f.scanAndProcess whole start).1,
          .cut .reset k ⟨idx,whole,false⟩ ((f.scanAndProcess whole start).2.map Prod.snd)) :=
      f.scanLoopResetting_own whole _ _ _ _ (s := ⟨idx,whole,false⟩) le_rfl hne
    have hle : (f.scanAndProcess whole start).1 ≤ whole.length :=
      f.scanLoop_le _ _ _ _ (Nat.zero_le _)
    rw [hscan]
    generalize f.scanAndProcess whole start = r at hle ⊢
    simp only [Option.bind_eq_bind, Option.bind_some, map_snd_shift]
    by_cases hk : 1 ≤ k ∧ k ≤ r.2.length
    · have hk' : k ≤ (r.2.map Prod.snd).length := by simpa using hk.2
      rw [if_pos hk, Pushed.cut_of_le hk.1 hk', Pushed.cut_of_le hk.1 hk']
      simp [LineState.reset, checkPartial]
    · have hk' : ¬(1 ≤ k ∧ k ≤ (r.2.map Prod.snd).length) := by simpa using hk
      rw [if_neg hk, Pushed.cut_of_not hk', Pushed.cut_of_not hk', if_neg (Nat.not_lt.mpr hle)]

/-- What a piece does is what it does without the callback, up to the reset when it is
scanned in the buffer. -/
theorem pushBytesInternalResetting_eq (k : ℕ) (s : LineState) (data : List UInt8) :
    f.pushBytesInternalResetting k s data = some (interrupted k s (f.pushBytesInternal 0 s data)) := by
  have hquiet : ∀ t, interrupted k s (t,[]) = ⟨t,k,[]⟩ :=
    fun t => interrupted_of_not (fun h => absurd (h.1.trans h.2) (by simp))
  unfold pushBytesInternalResetting pushBytesInternal
  by_cases hdata : data = []
  · rw [if_pos hdata, if_pos hdata, hquiet]
  rw [if_neg hdata, if_neg hdata]
  by_cases hd : s.discarding = true
  · rw [if_pos hd, if_pos hd]
    cases f.skipUntilDelimiter data with
    | none => exact congrArg some (hquiet _).symm
    | some consumed =>
      dsimp only
      by_cases hrest : data.drop consumed = []
      · rw [if_pos hrest, if_pos hrest, hquiet]
      · rw [if_neg hrest, if_neg hrest, f.pushSyncedResetting_eq k rfl]
        exact congrArg some (interrupted_congr rfl (f.pushSynced_label _ _ _ _))
  · rw [if_neg hd, if_neg hd, f.pushSyncedResetting_eq k (by simpa using hd)]

/-- What is held of the current line, nothing while an oversized one is skipped. -/
def held (s : LineState) : Option (List UInt8) := if s.discarding then none else some s.buffer

/-- An unterminated rest is held unless it is over the limit already. -/
def hold (rest : List UInt8) : Option (List UInt8) :=
  if maxPartialLength f.maxLength f.delimiter.length < rest.length then none else some rest

/-- The lines that end in a piece, and what is held after it. -/
def lines : Option (List UInt8) → List UInt8 → List (List UInt8) × Option (List UInt8)
  | some u, piece =>
    ((f.split (u ++ piece)).1,f.hold (f.split (u ++ piece)).2)
  | none, piece =>
    match f.find piece with
    | none => ([],none)
    | some i =>
      let rest := piece.drop (i + f.delimiter.length)
      ((f.split rest).1,f.hold (f.split rest).2)

/-- How many lines within the limit end in a piece. -/
def deliverable (h : Option (List UInt8)) (piece : List UInt8) : ℕ :=
  ((f.lines h piece).1.filter (fun line => line.length ≤ f.maxLength)).length

/-- The pieces that `push_bytes` cuts its input into. -/
def piecesLoop : ℕ → List UInt8 → List (List UInt8)
  | 0, _ => []
  | fuel + 1, data =>
    if data = [] then []
    else
      let len := min data.length f.chunkLimit
      data.take len :: piecesLoop fuel (data.drop len)

def pieces (data : List UInt8) : List (List UInt8) := f.piecesLoop data.length data

/-- No line within the limit ends in the pieces, and nothing is held after them. -/
def Quiet : Option (List UInt8) → List (List UInt8) → Prop
  | h, [] => h = some []
  | h, piece :: rest => f.deliverable h piece = 0 ∧ Quiet (f.lines h piece).2 rest

instance decidableQuiet : ∀ h rest, Decidable (f.Quiet h rest)
  | h, [] => inferInstanceAs (Decidable (h = some []))
  | h, piece :: rest =>
    have := decidableQuiet (f.lines h piece).2 rest
    inferInstanceAs (Decidable (f.deliverable h piece = 0 ∧ f.Quiet (f.lines h piece).2 rest))

/-- A reset at the `k`-th line ends the push: there are fewer; or the line ends in a
piece that continues held bytes and the later pieces are quiet for a new framer; or it
is the last one of a piece that continues nothing, and what follows it is quiet. -/
def SeesReset : Option (List UInt8) → List (List UInt8) → ℕ → Prop
  | _, [], _ => True
  | h, piece :: rest, k =>
    if f.deliverable h piece < k then SeesReset (f.lines h piece).2 rest (k - f.deliverable h piece)
    else if h = none ∨ h = some [] then k = f.deliverable h piece ∧ f.Quiet (f.lines h piece).2 rest
    else f.Quiet (some []) rest

instance decidableSeesReset : ∀ h rest k, Decidable (f.SeesReset h rest k)
  | _, [], _ => inferInstanceAs (Decidable True)
  | h, piece :: rest, k =>
    have := decidableSeesReset (f.lines h piece).2 rest (k - f.deliverable h piece)
    inferInstanceAs (Decidable (if f.deliverable h piece < k then
        f.SeesReset (f.lines h piece).2 rest (k - f.deliverable h piece)
      else if h = none ∨ h = some [] then
        k = f.deliverable h piece ∧ f.Quiet (f.lines h piece).2 rest
      else f.Quiet (some []) rest))

theorem held_settle (t : List UInt8) : held (f.settle t) = f.hold t := by
  unfold hold
  split
  · rw [f.settle_of_lt ‹_›]
    rfl
  · rw [f.settle_of_le (Nat.not_lt.mp ‹_›)]
    rfl

theorem length_emits (pos : ℕ) (cs : List (List UInt8)) :
    (f.emits pos cs).length = (cs.filter (fun c => c.length ≤ f.maxLength)).length := by
  simpa using congrArg List.length (f.map_snd_emits pos cs)

/-- A piece delivers the lines that end in it, and the members hold what is left. -/
theorem Settled.lines {f : LineFramer} {s : LineState} (h : f.Settled s) (pos : ℕ)
    (piece : List UInt8) :
    held (f.pushBytesInternal pos s piece).1 = (f.lines (held s) piece).2 ∧
    (f.pushBytesInternal pos s piece).2.length = f.deliverable (held s) piece := by
  obtain rfl | ⟨u,hu,hl,rfl⟩ := h
  · cases hs : f.find piece with
    | none =>
      rw [f.pushBytesInternal_discard_none pos hs]
      simp [held, deliverable, LineFramer.lines, hs]
    | some i =>
      rw [f.pushBytesInternal_discard_some pos hs]
      have hlines : f.lines (held ⟨0,[],true⟩) piece =
          ((f.split (piece.drop (i + f.delimiter.length))).1,
            f.hold (f.tail (piece.drop (i + f.delimiter.length)))) := by
        simp only [held, if_true, LineFramer.lines, hs]
        rfl
      exact ⟨by rw [hlines, held_settle],by rw [deliverable, hlines, length_emits]⟩
  · have ht := f.tail_of_free hu
    have hp := f.pushBytesInternal_synced u piece (by rwa [ht])
    obtain ⟨h1,h2⟩ := f.pushBytesInternal_label pos u.length (f.settle u) piece
    have hlen : (f.pushBytesInternal pos (f.settle u) piece).2.length =
        (f.pushBytesInternal u.length (f.settle u) piece).2.length := by
      simpa using congrArg List.length h2
    rw [ht] at hp
    have hlines : f.lines (held (f.settle u)) piece =
        ((f.split (u ++ piece)).1,f.hold (f.tail (u ++ piece))) := by
      rw [f.settle_of_le hl]
      rfl
    rw [h1, hlen, hp]
    refine ⟨by rw [hlines, held_settle],?_⟩
    rw [deliverable, hlines, newly, ht, length_emits]

/-- A settled state that holds no byte is the initial one. -/
theorem Settled.eq_reset_iff {f : LineFramer} {s : LineState} (h : f.Settled s) :
    s = .reset ↔ held s = some [] := by
  obtain rfl | ⟨u,-,hl,rfl⟩ := h
  · simp [held, LineState.reset]
  · rw [f.settle_of_le hl]
    simp only [held, LineState.reset, LineState.mk.injEq, and_true, Bool.false_eq_true, if_false,
      Option.some.injEq, and_iff_right_iff_imp]
    rintro rfl
    rfl

theorem Settled.buffer_nil_iff {f : LineFramer} {s : LineState} (h : f.Settled s) :
    held s = none ∨ held s = some [] ↔ s.buffer = [] := by
  obtain rfl | ⟨u,-,hl,rfl⟩ := h
  · simp [held]
  · simp [held, f.settle_of_le hl]

/-- A push finds nothing to deliver and leaves a new framer behind. -/
theorem pushLoop_quiet (fuel pos : ℕ) {s : LineState} (h : f.Settled s) (data : List UInt8) :
    (f.pushLoop fuel pos s data).2 = [] ∧ (f.pushLoop fuel pos s data).1 = .reset ↔
      f.Quiet (held s) (f.piecesLoop fuel data) := by
  induction fuel generalizing pos s data with
  | zero => simpa [pushLoop, piecesLoop, Quiet] using h.eq_reset_iff
  | succ fuel ih =>
    by_cases hd : data = []
    · simpa [pushLoop, piecesLoop, Quiet, hd] using h.eq_reset_iff
    · obtain ⟨h1,h2⟩ := h.lines pos (data.take (min data.length f.chunkLimit))
      have hrec := ih (pos + min data.length f.chunkLimit)
        (h.push pos (data.take (min data.length f.chunkLimit)))
        (data.drop (min data.length f.chunkLimit))
      simp only [pushLoop, piecesLoop, if_neg hd, Quiet, List.append_eq_nil_iff, ← h1, ← h2,
        List.length_eq_zero_iff, ← hrec, and_assoc]

theorem settled_pushLoop (fuel pos : ℕ) {s : LineState} (h : f.Settled s) (data : List UInt8) :
    f.Settled (f.pushLoop fuel pos s data).1 := by
  induction fuel generalizing pos s data with
  | zero => exact h
  | succ fuel ih =>
    unfold pushLoop
    split
    · exact h
    · exact ih _ (h.push _ _) _

/-- Without a reset the callback changes nothing. -/
theorem pushLoopResetting_zero (fuel pos : ℕ) (s : LineState) (data : List UInt8) :
    f.pushLoopResetting fuel 0 s data =
      some ⟨(f.pushLoop fuel pos s data).1,0,(f.pushLoop fuel pos s data).2.map Prod.snd⟩ := by
  induction fuel generalizing pos s data with
  | zero => rfl
  | succ fuel ih =>
    by_cases hd : data = []
    · simp [pushLoopResetting, pushLoop, hd]
    · have hpiece : ∀ r : LineState × List Message,
          interrupted 0 s r = ⟨r.1,0,r.2.map Prod.snd⟩ := by
        intro r
        rw [interrupted_of_not (by simp), Nat.zero_sub]
      obtain ⟨h1,h2⟩ := f.pushBytesInternal_label 0 pos s (data.take (min data.length f.chunkLimit))
      simp only [pushLoopResetting, pushLoop, if_neg hd, pushBytesInternalResetting_eq, hpiece,
        Option.bind_eq_bind, Option.bind_some, ih (pos + min data.length f.chunkLimit), h1, h2,
        List.map_append]

/-- The push ends at the reset exactly when the pieces of its input let it. -/
theorem pushLoopResetting_iff (fuel pos : ℕ) {s : LineState} (h : f.Settled s)
    (data : List UInt8) {k : ℕ} (hk : 1 ≤ k) :
    ∃ r, f.pushLoopResetting fuel k s data = some r ∧ f.Settled r.state ∧
      (r.out = ((f.pushLoop fuel pos s data).2.map Prod.snd).take k ∧
          (k ≤ (f.pushLoop fuel pos s data).2.length → r.state = .reset) ↔
        f.SeesReset (held s) (f.piecesLoop fuel data) k) := by
  induction fuel generalizing pos s data k with
  | zero =>
    refine ⟨⟨s,k,[]⟩,rfl,h,?_⟩
    simp [pushLoop, piecesLoop, SeesReset]
    omega
  | succ fuel ih =>
    by_cases hd : data = []
    · refine ⟨⟨s,k,[]⟩,by simp [pushLoopResetting, hd],h,?_⟩
      simp [pushLoop, piecesLoop, SeesReset, hd]
      omega
    generalize hn : min data.length f.chunkLimit = n
    obtain ⟨h1,h2⟩ := h.lines pos (data.take n)
    obtain ⟨hl1,hl2⟩ := f.pushBytesInternal_label 0 pos s (data.take n)
    have hset := h.push pos (data.take n)
    have hpiece := f.pushBytesInternalResetting_eq k s (data.take n)
    rw [interrupted_congr rfl ⟨hl1,hl2⟩] at hpiece
    simp only [pushLoopResetting, pushLoop, piecesLoop, if_neg hd, hn, hpiece, SeesReset,
      Option.bind_eq_bind, Option.bind_some, ← h1, ← h2, List.map_append, List.length_append]
    generalize f.pushBytesInternal pos s (data.take n) = p at hset ⊢
    by_cases hlt : p.2.length < k
    · have hint := interrupted_of_not (s := s) (fun hk : 1 ≤ k ∧ k ≤ p.2.length => by omega)
      obtain ⟨r,hr,hrs,hiff⟩ := ih (pos + n) hset (data.drop n) (k := k - p.2.length) (by omega)
      rw [hint, if_pos hlt]
      simp only [hr, Option.bind_some]
      refine ⟨_,rfl,hrs,?_⟩
      have htake : (p.2.map Prod.snd).take k = p.2.map Prod.snd :=
        List.take_of_length_le (by rw [List.length_map]; omega)
      rw [← hiff, List.take_append, htake, List.append_cancel_left_eq, List.length_map,
        Nat.sub_le_iff_le_add']
    have hle := Nat.not_lt.mp hlt
    rw [if_neg hlt]
    by_cases hb : s.buffer = []
    · rw [interrupted_of_empty hb hle, if_pos (h.buffer_nil_iff.mpr hb)]
      simp only [f.pushLoopResetting_zero fuel (pos + n), Option.bind_some,
        ← f.pushLoop_quiet fuel (pos + n) hset]
      refine ⟨_,rfl,f.settled_pushLoop fuel (pos + n) hset (data.drop n),?_⟩
      generalize f.pushLoop fuel (pos + n) p.1 (data.drop n) = q
      rw [eq_comm (b := List.take k _), List.take_eq_self_iff, ← List.map_append, List.length_map,
        List.length_append, ← List.length_eq_zero_iff]
      constructor
      · rintro ⟨hall,hst⟩
        exact ⟨by omega,by omega,hst (by omega)⟩
      · rintro ⟨rfl,hq,hst⟩
        exact ⟨by omega,fun _ => hst⟩
    · rw [interrupted_of_buffered hb hk hle, if_neg (fun hh => hb (h.buffer_nil_iff.mp hh))]
      have hquiet := f.pushLoop_quiet fuel (pos + n) f.settled_reset (data.drop n)
      simp only [f.pushLoopResetting_zero fuel (pos + n), Option.bind_some]
      refine ⟨_,rfl,f.settled_pushLoop fuel (pos + n) f.settled_reset (data.drop n),?_⟩
      generalize f.pushLoop fuel (pos + n) .reset (data.drop n) = q at hquiet ⊢
      rw [List.take_append_of_le_length (by rw [List.length_map]; exact hle),
        List.append_right_eq_self, List.map_eq_nil_iff]
      apply Iff.trans _ hquiet
      exact and_congr_right (fun _ => ⟨fun hst => hst (by omega),fun hst _ => hst⟩)

/-- One push, and what holds of the members after it. -/
theorem pushBytesResetting_iff {s : LineState} (h : f.Settled s) (data : List UInt8) {k : ℕ}
    (hk : 1 ≤ k) :
    ∃ r, f.pushBytesResetting k s data = some r ∧ f.Settled r.state ∧
      (r.out = ((f.pushBytes 0 s data).2.map Prod.snd).take k ∧
          (k ≤ (f.pushBytes 0 s data).2.length → r.state = .reset) ↔
        f.SeesReset (held s) (f.pieces data) k) :=
  f.pushLoopResetting_iff data.length 0 h data hk

end Wirestead.Framer.LineFramer
