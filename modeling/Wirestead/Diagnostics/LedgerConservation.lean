import Wirestead.Diagnostics.LedgerTracks

/-! # Conservation of accepted sends

Every single contribution balances, so all totals do, those of the groups as well as
those of the ledger, and the groups with the ungrouped requests make up the ledger.
-/
namespace Wirestead.Diagnostics

def SendRequestTotals.NonNeg (t : SendRequestTotals ℤ) : Prop := 0 ≤ t.requests ∧ 0 ≤ t.bytes

def SendLossTotals.NonNeg (t : SendLossTotals ℤ) : Prop :=
  t.discardedBeforeWrite.NonNeg ∧ t.abortedDuringWrite.NonNeg

theorem SendRequestTotals.NonNeg.add {s t : SendRequestTotals ℤ} (hs : s.NonNeg) (ht : t.NonNeg) :
    (s + t).NonNeg := ⟨add_nonneg hs.1 ht.1,add_nonneg hs.2 ht.2⟩

theorem SendLossTotals.NonNeg.add {s t : SendLossTotals ℤ} (hs : s.NonNeg) (ht : t.NonNeg) :
    (s + t).NonNeg := ⟨hs.1.add ht.1,hs.2.add ht.2⟩

theorem one_nonNeg (bytes : ℕ) : (one bytes : SendRequestTotals ℤ).NonNeg :=
  ⟨zero_le_one,Int.natCast_nonneg bytes⟩

theorem lost_nonNeg (bytes : ℕ) (active : Bool) : (lost bytes active : SendLossTotals ℤ).NonNeg := by
  cases active
  · exact ⟨one_nonNeg bytes,le_rfl,le_rfl⟩
  · exact ⟨⟨le_rfl,le_rfl⟩,one_nonNeg bytes⟩

namespace SendAccounting

/-- The requests lost for any of the causes. -/
def losses (t : SendAccounting ℤ) : SendRequestTotals ℤ :=
  (t.explicitStop.discardedBeforeWrite + t.explicitStop.abortedDuringWrite) +
  (t.connectionLoss.discardedBeforeWrite + t.connectionLoss.abortedDuringWrite) +
  (t.queuePressure.discardedBeforeWrite + t.queuePressure.abortedDuringWrite) +
  (t.sessionExpiry.discardedBeforeWrite + t.sessionExpiry.abortedDuringWrite)

/-- Conservation in requests and in bytes, with no counter below zero. -/
structure Balanced (t : SendAccounting ℤ) : Prop where
  conserved : t.accepted = t.written + t.outstanding + t.losses
  accepted : t.accepted.NonNeg
  written : t.written.NonNeg
  outstanding : t.outstanding.NonNeg
  explicitStop : t.explicitStop.NonNeg
  connectionLoss : t.connectionLoss.NonNeg
  queuePressure : t.queuePressure.NonNeg
  sessionExpiry : t.sessionExpiry.NonNeg
  written_le : t.written.bytes ≤ t.confirmedWrittenBytes
  confirmed_le : t.confirmedWrittenBytes ≤ t.accepted.bytes

theorem losses_add (s t : SendAccounting ℤ) : (s + t).losses = s.losses + t.losses := by
  simp only [losses, explicitStop_add, connectionLoss_add, queuePressure_add, sessionExpiry_add,
    discardedBeforeWrite_add, abortedDuringWrite_add]
  abel

theorem Balanced.add {s t : SendAccounting ℤ} (hs : s.Balanced) (ht : t.Balanced) :
    (s + t).Balanced where
  conserved := by
    rw [accepted_add, written_add, outstanding_add, losses_add, hs.conserved, ht.conserved]
    abel
  accepted := hs.accepted.add ht.accepted
  written := hs.written.add ht.written
  outstanding := hs.outstanding.add ht.outstanding
  explicitStop := hs.explicitStop.add ht.explicitStop
  connectionLoss := hs.connectionLoss.add ht.connectionLoss
  queuePressure := hs.queuePressure.add ht.queuePressure
  sessionExpiry := hs.sessionExpiry.add ht.sessionExpiry
  written_le := add_le_add hs.written_le ht.written_le
  confirmed_le := add_le_add hs.confirmed_le ht.confirmed_le

theorem balanced_zero : (0 : SendAccounting ℤ).Balanced := by
  constructor <;> simp [losses, SendRequestTotals.NonNeg, SendLossTotals.NonNeg]

end SendAccounting

/-- Whatever became of a request, its contribution balances. -/
theorem balanced_contribution (bytes : ℕ) (fate : Fate) :
    (contribution bytes fate : SendAccounting ℤ).Balanced := by
  have h0 : (0 : SendRequestTotals ℤ).NonNeg := ⟨le_rfl,le_rfl⟩
  have h00 : (0 : SendLossTotals ℤ).NonNeg := ⟨h0,h0⟩
  have h1 := one_nonNeg bytes
  have hb : (0 : ℤ) ≤ (bytes : ℤ) := Int.natCast_nonneg bytes
  have hl := lost_nonNeg bytes
  cases fate with
  | live active =>
    exact ⟨by simp [contribution, SendAccounting.losses],h1,h0,h1,h00,h00,h00,h00,le_rfl,hb⟩
  | completed confirmed =>
    by_cases hc : bytes ≤ confirmed
    · simp only [contribution, if_pos hc]
      exact ⟨by simp [SendAccounting.losses],h1,h1,h0,h00,h00,h00,h00,le_rfl,le_rfl⟩
    · simp only [contribution, if_neg hc]
      have hcb : (confirmed : ℤ) ≤ (bytes : ℤ) := by exact_mod_cast (Nat.not_le.mp hc).le
      refine ⟨by simp [SendAccounting.losses, lost],h1,h0,h0,h00,hl true,h00,h00,?_,hcb⟩
      exact Int.natCast_nonneg confirmed
  | terminated cause active =>
    have hlost : (lost bytes active : SendLossTotals ℤ).discardedBeforeWrite +
        (lost bytes active).abortedDuringWrite = one bytes := by
      cases active
      · exact add_zero _
      · exact zero_add _
    cases cause
    · exact ⟨by simp [contribution, SendAccounting.losses, hlost],h1,h0,h0,hl active,h00,h00,h00,le_rfl,hb⟩
    · exact ⟨by simp [contribution, SendAccounting.losses, hlost],h1,h0,h0,h00,hl active,h00,h00,le_rfl,hb⟩
    · exact ⟨by simp [contribution, SendAccounting.losses, hlost],h1,h0,h0,h00,h00,hl active,h00,le_rfl,hb⟩
    · exact ⟨by simp [contribution, SendAccounting.losses, hlost],h1,h0,h0,h00,h00,h00,hl active,le_rfl,hb⟩
  | rolledBack => exact SendAccounting.balanced_zero

theorem balanced_tally (sel : ℕ → Option ℕ → Bool) (rs : List Record) :
    (tally sel rs : SendAccounting ℤ).Balanced := by
  induction rs with
  | nil => exact SendAccounting.balanced_zero
  | cons r rs ih =>
    rw [tally_cons]
    refine SendAccounting.Balanced.add ?_ ih
    split
    · exact balanced_contribution r.bytes r.fate
    · exact SendAccounting.balanced_zero

/-- Outstanding are the live requests. -/
theorem outstanding_tally (sel : ℕ → Option ℕ → Bool) (rs : List Record) :
    let live := ((rs.filterMap Record.request).map Prod.snd).filter (fun q => sel q.epoch q.group)
    (tally sel rs : SendAccounting ℤ).outstanding =
      ⟨(live.length : ℤ),((live.map Request.bytes).sum : ℕ)⟩ := by
  induction rs with
  | nil => rfl
  | cons r rs ih =>
    dsimp only at ih ⊢
    rw [tally_cons, outstanding_add, ih, List.filterMap_cons]
    cases hr : r.request with
    | none =>
      have h0 : (contribution r.bytes r.fate : SendAccounting ℤ).outstanding = 0 := by
        unfold Record.request at hr
        split at hr
        · cases hr
        · rename_i hf
          cases hfate : r.fate with
          | live active => exact absurd hfate (hf active)
          | completed confirmed =>
            simp only [contribution]
            split <;> rfl
          | terminated cause active => cases cause <;> rfl
          | rolledBack => rfl
      have hz : (if sel r.epoch r.group = true then
          (contribution r.bytes r.fate : SendAccounting ℤ) else 0).outstanding = 0 := by
        split
        · exact h0
        · rfl
      rw [hz, zero_add]
    | some x =>
      obtain ⟨hf,-,hb,he,hg⟩ := Record.request_eq_some hr
      rw [List.map_cons, List.filter_cons, he, hg]
      by_cases hsel : sel r.epoch r.group = true
      · rw [if_pos hsel, if_pos hsel, hf, List.map_cons, List.sum_cons, List.length_cons, hb]
        ext <;> simp [contribution, one, add_comm]
      · rw [if_neg hsel, if_neg hsel, outstanding_zero, zero_add]

/-- The groups of the requests and the requests without a group make up a tally. -/
theorem tally_groups (e : ℕ) (rs : List Record) {G : Finset ℕ}
    (hG : ∀ r ∈ rs, r.epoch = e → ∀ g, r.group = some g → g ∈ G) :
    (tally (fun k _ => k = e) rs : SendAccounting ℤ) =
      ∑ g ∈ G, tally (fun k j => decide (k = e) && decide (j = some g)) rs +
        tally (fun k j => decide (k = e) && decide (j = none)) rs := by
  induction rs with
  | nil => simp [tally]
  | cons r rs ih =>
    have ih := ih (fun s hs => hG s (List.mem_cons_of_mem _ hs))
    rw [tally_cons, tally_cons, ih]
    simp only [tally_cons, Finset.sum_add_distrib]
    by_cases he : r.epoch = e
    · cases hg : r.group with
      | none =>
        simp only [he, decide_true, if_true, reduceCtorEq, decide_false, Bool.and_false,
          Bool.false_eq_true, if_false, Finset.sum_const_zero, Bool.and_self]
        abel
      | some g =>
        have hmem := hG r List.mem_cons_self he g hg
        simp only [he, decide_true, if_true, Option.some.injEq, Bool.true_and, decide_eq_true_eq,
          reduceCtorEq, if_false, Finset.sum_ite_eq, hmem]
        abel
    · simp [he]

/-- The live requests of the epoch, of all groups or of those that `sel` selects. -/
def Ledger.liveRequests (c : Ledger ℤ) (sel : Option ℕ → Bool) : List Request :=
  ((c.entries.map (fun p => p.2.toRequest)).filter
    (fun q => decide (q.epoch = c.books.epoch) && sel q.group))

/-- Totals that balance, whose outstanding part is exactly a list of requests: taking
any of these out again does not bring a counter below zero. -/
structure Accounts (t : SendAccounting ℤ) (live : List Request) : Prop where
  balanced : t.Balanced
  outstanding : t.outstanding = ⟨(live.length : ℤ),((live.map Request.bytes).sum : ℕ)⟩
  removable : ∀ xs : List Request, xs.Sublist live →
    (xs.length : ℤ) ≤ t.outstanding.requests ∧
    (((xs.map Request.bytes).sum : ℕ) : ℤ) ≤ t.outstanding.bytes ∧
    (xs.length : ℤ) ≤ t.accepted.requests ∧
    (((xs.map Request.bytes).sum : ℕ) : ℤ) ≤ t.accepted.bytes

theorem accounts_of_outstanding {t : SendAccounting ℤ} {live : List Request} (hb : t.Balanced)
    (ho : t.outstanding = ⟨(live.length : ℤ),((live.map Request.bytes).sum : ℕ)⟩) :
    Accounts t live := by
  refine ⟨hb,ho,fun xs hs => ?_⟩
  have hlen : (xs.length : ℤ) ≤ live.length := by exact_mod_cast hs.length_le
  have hsum : (((xs.map Request.bytes).sum : ℕ) : ℤ) ≤ ((live.map Request.bytes).sum : ℕ) := by
    exact_mod_cast (hs.map Request.bytes).sum_le_sum (fun _ _ => Nat.zero_le _)
  have hconserved := hb.conserved
  have hw := hb.written
  have hl : t.losses.NonNeg := (((hb.explicitStop.1.add hb.explicitStop.2).add
    (hb.connectionLoss.1.add hb.connectionLoss.2)).add
    (hb.queuePressure.1.add hb.queuePressure.2)).add (hb.sessionExpiry.1.add hb.sessionExpiry.2)
  have hreq := congrArg SendRequestTotals.requests hconserved
  have hbyt := congrArg SendRequestTotals.bytes hconserved
  simp only [requests_add, bytes_add] at hreq hbyt
  obtain ⟨hw1,hw2⟩ := hw
  obtain ⟨hl1,hl2⟩ := hl
  have ho1 : t.outstanding.requests = live.length := congrArg SendRequestTotals.requests ho
  have ho2 : t.outstanding.bytes = ((live.map Request.bytes).sum : ℕ) :=
    congrArg SendRequestTotals.bytes ho
  refine ⟨?_,?_,?_,?_⟩ <;> omega

/-- The groups that received requests in the epoch, and the account of the requests
that were admitted without a group. -/
def History.groups (h : History) : Finset ℕ :=
  ((h.records.filter (fun r => r.epoch = h.epoch)).filterMap Record.group).toFinset

def History.ungrouped (h : History) : SendAccounting ℤ :=
  tally (fun e k => decide (e = h.epoch) && decide (k = none)) h.records

/-- Conservation in every reachable state: the ledger and every group balance, their
outstanding requests are the live ones of the epoch, and the ledger is the sum of its
groups and of the requests without a group. -/
theorem Ledger.run_conserves (ops : List LedgerOp) :
    let c := ((Ledger.new : Ledger ℤ).run ops).1
    let h := History.new.run ops
    Accounts c.books.snapshot (c.liveRequests (fun _ => true)) ∧
    (∀ g, Accounts (c.books.groupSnapshot (some g)) (c.liveRequests (fun k => k = some g))) ∧
    c.books.snapshot = ∑ g ∈ h.groups, c.books.groupSnapshot (some g) + h.ungrouped := by
  intro c h
  have t : Tracks c.toMap h := Ledger.tracks_run ops
  have hlive : ∀ sel : Option ℕ → Bool, c.liveRequests sel =
      (h.requests.map Prod.snd).filter (fun q => decide (q.epoch = h.epoch) && sel q.group) := by
    intro sel
    rw [← t.requests, ← t.epoch, Ledger.toMap, forget, List.map_map]
    rfl
  have hsnap : c.books.snapshot = tally (fun e _ => e = h.epoch) h.records := t.totals
  refine ⟨accounts_of_outstanding ?_ ?_,fun g => accounts_of_outstanding ?_ ?_,?_⟩
  · rw [hsnap]
    exact balanced_tally _ _
  · rw [hsnap, outstanding_tally, hlive]
    simp only [Bool.and_true]
    rfl
  · rw [show c.books.groupSnapshot (some g) = _ from t.groupSnapshot g]
    exact balanced_tally _ _
  · rw [show c.books.groupSnapshot (some g) = _ from t.groupSnapshot g, outstanding_tally, hlive]
    rfl
  · rw [hsnap, tally_groups h.epoch h.records (G := h.groups)]
    · congr 1
      exact Finset.sum_congr rfl (fun g _ => (t.groupSnapshot g).symm)
    · intro r hr he g hg
      rw [History.groups, List.mem_toFinset, List.mem_filterMap]
      exact ⟨r,List.mem_filter.mpr ⟨hr,by simpa using he⟩,hg⟩

section Words
variable {N : Type*} [CommRing N]

def SendRequestTotals.cast (t : SendRequestTotals ℤ) : SendRequestTotals N := ⟨t.requests,t.bytes⟩

def SendLossTotals.cast (t : SendLossTotals ℤ) : SendLossTotals N :=
  ⟨t.discardedBeforeWrite.cast,t.abortedDuringWrite.cast⟩

/-- Exact totals in another ring of counters. -/
def SendAccounting.cast (t : SendAccounting ℤ) : SendAccounting N :=
  ⟨t.accepted.cast,t.written.cast,t.outstanding.cast,t.explicitStop.cast,t.connectionLoss.cast,
    t.queuePressure.cast,t.sessionExpiry.cast,t.confirmedWrittenBytes⟩

theorem cast_add (s t : SendAccounting ℤ) : ((s + t).cast : SendAccounting N) = s.cast + t.cast := by
  ext <;> simp [SendAccounting.cast, SendLossTotals.cast, SendRequestTotals.cast]

theorem cast_zeros : (SendRequestTotals.cast 0 : SendRequestTotals N) = 0 ∧
    (SendLossTotals.cast 0 : SendLossTotals N) = 0 ∧ (SendAccounting.cast 0 : SendAccounting N) = 0 := by
  have h1 : (SendRequestTotals.cast 0 : SendRequestTotals N) = 0 := by
    ext <;> exact Int.cast_zero
  have h2 : (SendLossTotals.cast 0 : SendLossTotals N) = 0 := SendLossTotals.ext h1 h1
  exact ⟨h1,h2,SendAccounting.ext h1 h1 h1 h2 h2 h2 h2 Int.cast_zero⟩

theorem cast_one (bytes : ℕ) : ((one bytes : SendRequestTotals ℤ).cast : SendRequestTotals N) = one bytes :=
  SendRequestTotals.ext Int.cast_one (Int.cast_natCast bytes)

theorem cast_lost (bytes : ℕ) (active : Bool) :
    ((lost bytes active : SendLossTotals ℤ).cast : SendLossTotals N) = lost bytes active := by
  cases active
  · exact SendLossTotals.ext (cast_one bytes) cast_zeros.1
  · exact SendLossTotals.ext cast_zeros.1 (cast_one bytes)

theorem cast_contribution (bytes : ℕ) (fate : Fate) :
    ((contribution bytes fate : SendAccounting ℤ).cast : SendAccounting N) =
      contribution bytes fate := by
  obtain ⟨h0,h00,-⟩ := cast_zeros (N := N)
  have h1 := cast_one (N := N) bytes
  have hl := cast_lost (N := N) bytes
  cases fate with
  | live active => exact SendAccounting.ext h1 h0 h1 h00 h00 h00 h00 Int.cast_zero
  | completed confirmed =>
    by_cases h : bytes ≤ confirmed
    · simp only [contribution, if_pos h]
      exact SendAccounting.ext h1 h1 h0 h00 h00 h00 h00 (Int.cast_natCast bytes)
    · simp only [contribution, if_neg h]
      exact SendAccounting.ext h1 h0 h0 h00 (hl true) h00 h00 (Int.cast_natCast confirmed)
  | terminated cause active =>
    cases cause
    · exact SendAccounting.ext h1 h0 h0 (hl active) h00 h00 h00 Int.cast_zero
    · exact SendAccounting.ext h1 h0 h0 h00 (hl active) h00 h00 Int.cast_zero
    · exact SendAccounting.ext h1 h0 h0 h00 h00 (hl active) h00 Int.cast_zero
    · exact SendAccounting.ext h1 h0 h0 h00 h00 h00 (hl active) Int.cast_zero
  | rolledBack => exact cast_zeros.2.2

theorem cast_tally (sel : ℕ → Option ℕ → Bool) (rs : List Record) :
    ((tally sel rs : SendAccounting ℤ).cast : SendAccounting N) = tally sel rs := by
  induction rs with
  | nil => exact cast_zeros.2.2
  | cons r rs ih =>
    rw [tally_cons, tally_cons, cast_add, ih]
    congr 1
    split
    · exact cast_contribution r.bytes r.fate
    · exact cast_zeros.2.2

/-- Counters that wrap around hold the exact totals up to the wrapping: those of
64-bit words are the exact ones modulo their size. -/
theorem Ledger.run_cast (ops : List LedgerOp) (g : ℕ) :
    let ints := ((Ledger.new : Ledger ℤ).run ops).1.books
    let words := ((Ledger.new : Ledger N).run ops).1.books
    words.snapshot = ints.snapshot.cast ∧
    words.groupSnapshot (some g) = (ints.groupSnapshot (some g)).cast := by
  intro ints words
  have hz := Ledger.tracks_run (N := ℤ) ops
  have hw := Ledger.tracks_run (N := N) ops
  have h1 : words.snapshot = _ := hw.totals
  have h2 : ints.snapshot = _ := hz.totals
  have h3 : words.groupSnapshot (some g) = _ := hw.groupSnapshot g
  have h4 : ints.groupSnapshot (some g) = _ := hz.groupSnapshot g
  rw [h1, h2, h3, h4, cast_tally, cast_tally]
  exact ⟨rfl,rfl⟩

end Words
end Wirestead.Diagnostics
