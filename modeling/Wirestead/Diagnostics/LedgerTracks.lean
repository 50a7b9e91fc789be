import Wirestead.Diagnostics.LedgerHistory

/-! # The books are the sums of the history

The ledger and the history of the same operations are tracked side by side. A group
that restarts in a later epoch has no requests of that epoch behind it.
-/
namespace Wirestead.Diagnostics
variable {N : Type*} [CommRing N]

/-- The contributions of the requests selected by epoch and group. -/
def tally (sel : ℕ → Option ℕ → Bool) (rs : List Record) : SendAccounting N :=
  ((rs.filter (fun r => sel r.epoch r.group)).map (fun r => contribution r.bytes r.fate)).sum

theorem tally_append (sel : ℕ → Option ℕ → Bool) (rs ss : List Record) :
    (tally sel (rs ++ ss) : SendAccounting N) = tally sel rs + tally sel ss := by
  simp [tally]

theorem tally_cons (sel : ℕ → Option ℕ → Bool) (r : Record) (rs : List Record) :
    (tally sel (r :: rs) : SendAccounting N) =
      (if sel r.epoch r.group then contribution r.bytes r.fate else 0) + tally sel rs := by
  unfold tally
  rw [List.filter_cons]
  split <;> simp

theorem Record.request_eq_some {r : Record} {x : ℕ × Request} (h : r.request = some x) :
    r.fate = .live x.2.active ∧ x.1 = r.id ∧ x.2.bytes = r.bytes ∧ x.2.epoch = r.epoch ∧
      x.2.group = r.group := by
  unfold Record.request at h
  split at h
  · rename_i active hf
    cases h
    exact ⟨hf,rfl,rfl,rfl,rfl⟩
  · cases h

namespace History
variable (h : History)

/-- The record after its request was settled, if `p` selects it. -/
def settled (p : ℕ → Request → Bool) (φ : Request → Fate) (r : Record) : Record :=
  match r.request with
  | some (id,q) => if p id q then { r with fate := φ q } else r
  | none => r

theorem records_settleAll (p : ℕ → Request → Bool) (φ : Request → Fate) :
    (h.settleAll p φ).records = h.records.map (settled p φ) := rfl

theorem settled_of_none (p : ℕ → Request → Bool) (φ : Request → Fate) {r : Record} (hr : r.request = none) :
    settled p φ r = r := by
  rw [settled, hr]

theorem settled_of_some (p : ℕ → Request → Bool) (φ : Request → Fate) {r : Record} {x : ℕ × Request}
    (hr : r.request = some x) : settled p φ r = if p x.1 x.2 then { r with fate := φ x.2 } else r := by
  rw [settled, hr]

theorem settled_fields (p : ℕ → Request → Bool) (φ : Request → Fate) (r : Record) :
    (settled p φ r).id = r.id ∧ (settled p φ r).bytes = r.bytes ∧
      (settled p φ r).epoch = r.epoch ∧ (settled p φ r).group = r.group := by
  unfold settled
  split
  · split <;> exact ⟨rfl,rfl,rfl,rfl⟩
  · exact ⟨rfl,rfl,rfl,rfl⟩

/-- Settling changes a tally by what the settled requests change. -/
theorem tally_settleAll (p : ℕ → Request → Bool) (φ : Request → Fate)
    (sel : ℕ → Option ℕ → Bool) :
    (tally sel (h.settleAll p φ).records : SendAccounting N) = tally sel h.records +
      (((h.requests.filter (fun x => p x.1 x.2)).filter (fun x => sel x.2.epoch x.2.group)).map
        (fun x => settling x.2 (φ x.2))).sum := by
  rw [records_settleAll, requests]
  induction h.records with
  | nil => simp [tally]
  | cons r rs ih =>
    obtain ⟨-,hb,he,hg⟩ := settled_fields p φ r
    rw [List.map_cons, tally_cons, tally_cons, ih, he, hg, hb, List.filterMap_cons]
    cases hr : r.request with
    | none =>
      rw [settled_of_none p φ hr, add_assoc]
    | some x =>
      obtain ⟨hf,hid,hxb,hxe,hxg⟩ := Record.request_eq_some hr
      rw [settled_of_some p φ hr, List.filter_cons]
      by_cases hp : p x.1 x.2 = true
      · rw [if_pos hp, if_pos hp, List.filter_cons, hxe, hxg]
        by_cases hsel : sel r.epoch r.group = true
        · rw [if_pos hsel, if_pos hsel, if_pos hsel, List.map_cons, List.sum_cons, settling, hxb, hf]
          abel
        · rw [if_neg hsel, if_neg hsel, if_neg hsel]
          abel
      · rw [if_neg hp, if_neg hp, add_assoc]

theorem requests_settleAll (p : ℕ → Request → Bool) {φ : Request → Fate}
    (hφ : ∀ q active, φ q ≠ .live active) :
    (h.settleAll p φ).requests = h.requests.filter (fun x => !p x.1 x.2) := by
  rw [requests, requests, records_settleAll]
  induction h.records with
  | nil => rfl
  | cons r rs ih =>
    rw [List.map_cons, List.filterMap_cons, List.filterMap_cons, ih]
    cases hr : r.request with
    | none =>
      rw [settled_of_none p φ hr, hr]
    | some x =>
      rw [settled_of_some p φ hr, List.filter_cons]
      by_cases hp : p x.1 x.2 = true
      · have hnone : ({ r with fate := φ x.2 } : Record).request = none := by
          unfold Record.request
          split
          · rename_i active he
            exact absurd he (hφ _ _)
          · rfl
        rw [if_pos hp, hnone, if_neg (by simp [hp])]
      · rw [if_neg hp, hr, if_pos (by simp [hp])]

theorem requests_activate (id : ℕ) :
    (h.activate id).requests = alterKey h.requests id (fun q => { q with active := true }) := by
  rw [activate, requests, requests, records_settleAll, alterKey]
  induction h.records with
  | nil => rfl
  | cons r rs ih =>
    rw [List.map_cons, List.filterMap_cons, List.filterMap_cons, ih]
    cases hr : r.request with
    | none =>
      rw [settled_of_none _ _ hr, hr]
    | some x =>
      obtain ⟨hf,hid,hxb,hxe,hxg⟩ := Record.request_eq_some hr
      rw [settled_of_some _ _ hr, List.map_cons]
      by_cases hk : x.1 = id
      · rw [if_pos (decide_eq_true hk), if_pos hk]
        simp only [Record.request, hid, ← hxb, ← hxe, ← hxg]
      · rw [if_neg (by simpa using hk), if_neg hk, hr]

/-- Handing a request to local I/O changes no total. -/
theorem tally_activate (id : ℕ) (sel : ℕ → Option ℕ → Bool) :
    (tally sel (h.activate id).records : SendAccounting N) = tally sel h.records := by
  rw [activate, tally_settleAll]
  have hz : ∀ x : ℕ × Request, (settling x.2 (.live true) : SendAccounting N) = 0 := by
    intro x
    rw [settling, sub_eq_zero]
    rfl
  simp [hz]

end History

/-- What settling a list of requests does to the books. -/
theorem Books.foldl_update {settle : Request → SendAccounting N → SendAccounting N}
    {δ : Request → SendAccounting N} (hs : ∀ q t, settle q t = t + δ q) (xs : List (ℕ × Request))
    (b : Books N) :
    let b' := xs.foldl (fun b x => b.update x.2 (settle x.2)) b
    b'.epoch = b.epoch ∧
    b'.totals = b.totals + ((xs.filter (fun x => x.2.epoch = b.epoch)).map (fun x => δ x.2)).sum ∧
    ∀ g, (b'.groups g).epoch = (b.groups g).epoch ∧
      (b'.groups g).totals = (b.groups g).totals +
        ((xs.filter (fun x => decide (x.2.epoch = b.epoch) && decide (x.2.group = some g))).map
          (fun x => δ x.2)).sum := by
  induction xs generalizing b with
  | nil => simp
  | cons x xs ih =>
    obtain ⟨h1,h2,h3⟩ := ih (b.update x.2 (settle x.2))
    dsimp only at h1 h2 h3 ⊢
    rw [List.foldl_cons]
    by_cases he : x.2.epoch = b.epoch
    · have hepoch : (b.update x.2 (settle x.2)).epoch = b.epoch := by
        unfold Books.update
        rw [if_pos he]
        split <;> rfl
      have htot : (b.update x.2 (settle x.2)).totals = b.totals + δ x.2 := by
        unfold Books.update
        rw [if_pos he]
        split <;> exact hs _ _
      have hgrp : ∀ g, (((b.update x.2 (settle x.2)).groups g).epoch = (b.groups g).epoch) ∧
          ((b.update x.2 (settle x.2)).groups g).totals = (b.groups g).totals +
            if x.2.group = some g then δ x.2 else 0 := by
        intro g
        unfold Books.update
        rw [if_pos he]
        split
        · rename_i hn
          simp [hn]
        · rename_i k hk
          by_cases hg : g = k
          · subst hg
            simp [hk, hs]
          · simp [hk, Function.update_of_ne hg, Ne.symm hg]
      refine ⟨h1.trans hepoch,?_,fun g => ⟨(h3 g).1.trans (hgrp g).1,?_⟩⟩
      · rw [h2, htot, hepoch, List.filter_cons, if_pos (by simpa using he), List.map_cons,
          List.sum_cons, add_assoc]
      · rw [(h3 g).2, (hgrp g).2, hepoch, List.filter_cons, add_assoc]
        by_cases hg : x.2.group = some g
        · rw [if_pos hg, if_pos (by simp [he, hg]), List.map_cons, List.sum_cons]
        · rw [if_neg hg, if_neg (by simp [hg]), zero_add]
    · have hsame : b.update x.2 (settle x.2) = b := if_neg he
      rw [hsame] at h1 h2 h3 ⊢
      refine ⟨h1,?_,fun g => ⟨(h3 g).1,?_⟩⟩
      · rw [h2, List.filter_cons, if_neg (by simpa using he)]
      · rw [(h3 g).2, List.filter_cons, if_neg (by simp [he])]

namespace LedgerMap

/-- The requests that `p` selects leave the map and are settled in the books. -/
def settleAll (a : LedgerMap N) (p : ℕ → Request → Bool)
    (settle : Request → SendAccounting N → SendAccounting N) : LedgerMap N :=
  { a with requests := a.requests.filter (fun x => !p x.1 x.2)
           books := (a.requests.filter (fun x => p x.1 x.2)).foldl
            (fun b x => b.update x.2 (settle x.2)) a.books }

omit [CommRing N] in
/-- With unique ids, settling one request is settling all that have its id. -/
theorem finish_eq_settleAll {a : LedgerMap N} (hn : (a.requests.map Prod.fst).Nodup) (id : ℕ)
    (settle : Request → SendAccounting N → SendAccounting N) :
    a.finish id settle = a.settleAll (fun k _ => k = id) settle := by
  have hfilter : a.requests.filter (fun x => decide (x.1 = id)) =
      ((a.requests.lookup id).map (fun q => (id,q))).toList := by
    clear settle
    revert hn
    induction a.requests with
    | nil => exact fun _ => rfl
    | cons x xs ih =>
      intro hn
      rw [List.map_cons, List.nodup_cons] at hn
      rw [List.filter_cons, List.lookup_cons]
      by_cases hx : x.1 = id
      · have hnone : xs.filter (fun x => decide (x.1 = id)) = [] := by
          refine List.filter_eq_nil_iff.mpr (fun y hy hyid => hn.1 ?_)
          rw [hx, ← of_decide_eq_true hyid]
          exact List.mem_map_of_mem hy
        rw [if_pos (by simpa using hx), hnone, ← hx, beq_self_eq_true]
        rfl
      · rw [if_neg (by simpa using hx), ih hn.2, beq_false_of_ne (Ne.symm hx)]
  unfold finish settleAll
  rw [hfilter]
  have herase : a.requests.filter (fun x => !decide (x.1 = id)) = eraseKey a.requests id := by
    unfold eraseKey
    congr 1
    funext x
    simp
  cases hl : a.requests.lookup id with
  | none =>
    have hall : eraseKey a.requests id = a.requests := by
      rw [List.lookup_eq_none_iff] at hl
      refine List.filter_eq_self.mpr (fun x hx => ?_)
      have := hl x hx
      simp at this ⊢
      omega
    rw [herase, hall]
    rfl
  | some q =>
    rw [herase]
    rfl

end LedgerMap

/-- The ledger and the history of the same operations. -/
structure Tracks (a : LedgerMap N) (h : History) : Prop where
  requests : a.requests = h.requests
  ids : h.records.map Record.id = List.range' 1 h.records.length
  nextId : a.nextId = h.records.length
  epoch : a.books.epoch = h.epoch
  past : ∀ r ∈ h.records, r.epoch ≤ h.epoch
  totals : a.books.totals = tally (fun e _ => e = h.epoch) h.records
  group_past : ∀ g, (a.books.groups g).epoch ≤ h.epoch
  group_current : ∀ r ∈ h.records, r.epoch = h.epoch → ∀ g, r.group = some g →
    (a.books.groups g).epoch = h.epoch
  group_totals : ∀ g, (a.books.groups g).epoch = h.epoch →
    (a.books.groups g).totals =
      tally (fun e k => decide (e = h.epoch) && decide (k = some g)) h.records

namespace Tracks
variable {a : LedgerMap N} {h : History}

theorem nodup (t : Tracks a h) : (a.requests.map Prod.fst).Nodup := by
  have hsub : ∀ rs : List Record, ((rs.filterMap Record.request).map Prod.fst).Sublist
      (rs.map Record.id) := by
    intro rs
    induction rs with
    | nil => exact List.Sublist.refl _
    | cons r rs ih =>
      rw [List.filterMap_cons, List.map_cons]
      cases hr : r.request with
      | none => exact ih.cons _
      | some x =>
        rw [List.map_cons, (Record.request_eq_some hr).2.1]
        exact ih.cons_cons _
  rw [t.requests]
  refine (hsub h.records).nodup ?_
  rw [t.ids]
  exact List.nodup_range'

theorem settleAll (t : Tracks a h) (p : ℕ → Request → Bool) {φ : Request → Fate}
    (hφ : ∀ q active, φ q ≠ .live active)
    {settle : Request → SendAccounting N → SendAccounting N}
    (hs : ∀ q t, settle q t = t + settling q (φ q)) :
    Tracks (a.settleAll p settle) (h.settleAll p φ) := by
  obtain ⟨h1,h2,h3⟩ := Books.foldl_update hs (a.requests.filter (fun x => p x.1 x.2)) a.books
  have hlen : (h.settleAll p φ).records.length = h.records.length := List.length_map _
  refine ⟨?_,?_,?_,h1.trans t.epoch,?_,?_,?_,?_,?_⟩
  · rw [h.requests_settleAll p hφ, ← t.requests]
    rfl
  · rw [hlen, ← t.ids, h.records_settleAll, List.map_map]
    exact List.map_congr_left (fun r _ => (History.settled_fields p φ r).1)
  · rw [hlen]
    exact t.nextId
  · intro r hr
    obtain ⟨r0,hr0,rfl⟩ := List.mem_map.mp (h.records_settleAll p φ ▸ hr)
    rw [(History.settled_fields p φ r0).2.2.1]
    exact t.past r0 hr0
  · rw [h.tally_settleAll, ← t.requests]
    refine h2.trans ?_
    rw [t.totals, t.epoch]
    rfl
  · exact fun g => (h3 g).1.le.trans (t.group_past g)
  · intro r hr he g hg
    obtain ⟨r0,hr0,rfl⟩ := List.mem_map.mp (h.records_settleAll p φ ▸ hr)
    obtain ⟨-,-,hfe,hfg⟩ := History.settled_fields p φ r0
    exact (h3 g).1.trans (t.group_current r0 hr0 (hfe ▸ he) g (hfg ▸ hg))
  · intro g hg
    rw [h.tally_settleAll, ← t.requests]
    refine (h3 g).2.trans ?_
    rw [t.group_totals g ((h3 g).1.symm.trans hg), t.epoch]
    rfl

theorem activate (t : Tracks a h) (id : ℕ) : Tracks (a.activate id) (h.activate id) := by
  have hlen : (h.activate id).records.length = h.records.length := List.length_map _
  have hmem : ∀ r ∈ (h.activate id).records, ∃ r0 ∈ h.records, r.epoch = r0.epoch ∧
      r.group = r0.group := by
    intro r hr
    obtain ⟨r0,hr0,rfl⟩ := List.mem_map.mp hr
    obtain ⟨-,-,he,hg⟩ := History.settled_fields (fun k _ => k = id) (fun _ => .live true) r0
    exact ⟨r0,hr0,he,hg⟩
  refine ⟨?_,?_,hlen ▸ t.nextId,t.epoch,?_,?_,t.group_past,?_,?_⟩
  · rw [h.requests_activate, ← t.requests]
    rfl
  · rw [hlen, ← t.ids, History.activate, h.records_settleAll, List.map_map]
    exact List.map_congr_left (fun r _ => (History.settled_fields _ _ r).1)
  · intro r hr
    obtain ⟨r0,hr0,he,-⟩ := hmem r hr
    rw [he]
    exact t.past r0 hr0
  · rw [h.tally_activate]
    exact t.totals
  · intro r hr he g hg
    obtain ⟨r0,hr0,hfe,hfg⟩ := hmem r hr
    exact t.group_current r0 hr0 (hfe ▸ he) g (hfg ▸ hg)
  · intro g hg
    rw [h.tally_activate]
    exact t.group_totals g hg

/-- A new epoch: nothing was admitted in it. -/
theorem reset (t : Tracks a h) : Tracks a.reset { h with epoch := h.epoch + 1 } := by
  have hnone : ∀ sel : ℕ → Option ℕ → Bool, (∀ e k, sel e k = true → e = h.epoch + 1) →
      (tally sel h.records : SendAccounting N) = 0 := by
    intro sel hsel
    rw [tally, List.filter_eq_nil_iff.mpr]
    · rfl
    · intro r hr hs
      have h1 := hsel _ _ hs
      have h2 := t.past r hr
      omega
  have hgroup : ∀ g, (a.books.groups g).epoch ≠ h.epoch + 1 := by
    intro g
    have := t.group_past g
    omega
  refine ⟨t.requests,t.ids,t.nextId,congrArg (· + 1) t.epoch,?_,?_,?_,?_,?_⟩
  · exact fun r hr => (t.past r hr).trans (Nat.le_succ _)
  · exact (hnone _ (fun e _ he => by simpa using he)).symm
  · exact fun g => (t.group_past g).trans (Nat.le_succ _)
  · intro r hr he
    have := t.past r hr
    change r.epoch = h.epoch + 1 at he
    omega
  · exact fun g hg => absurd hg (hgroup g)

/-- A group that is joined belongs to the epoch, with the totals it has there. -/
theorem joinGroup (t : Tracks a h) (group : Option ℕ) :
    let b := a.books.joinGroup group
    b.epoch = h.epoch ∧ b.totals = a.books.totals ∧ ∀ g, (b.groups g).epoch ≤ h.epoch ∧
      (group = some g → (b.groups g).epoch = h.epoch) ∧
      ((a.books.groups g).epoch = h.epoch → (b.groups g).epoch = h.epoch) ∧
      ((b.groups g).epoch = h.epoch → (b.groups g).totals =
        tally (fun e k => decide (e = h.epoch) && decide (k = some g)) h.records) := by
  cases group with
  | none =>
    exact ⟨t.epoch,rfl,fun g => ⟨t.group_past g,(nomatch ·),fun h => h,t.group_totals g⟩⟩
  | some k =>
    by_cases hk : (a.books.groups k).epoch = a.books.epoch
    · have hb : a.books.joinGroup (some k) = a.books := if_pos hk
      rw [hb]
      refine ⟨t.epoch,rfl,fun g => ⟨t.group_past g,?_,fun h => h,t.group_totals g⟩⟩
      rintro ⟨⟩
      exact hk.trans t.epoch
    · have hb : a.books.joinGroup (some k) =
          { a.books with groups := Function.update a.books.groups k ⟨0,a.books.epoch⟩ } := if_neg hk
      rw [hb]
      refine ⟨t.epoch,rfl,fun g => ?_⟩
      dsimp only
      by_cases hg : g = k
      · subst hg
        rw [Function.update_self]
        refine ⟨t.epoch.le,fun _ => t.epoch,fun _ => t.epoch,fun _ => ?_⟩
        -- the group received nothing in this epoch
        rw [tally, List.filter_eq_nil_iff.mpr]
        · rfl
        · intro r hr hs
          rw [Bool.and_eq_true, decide_eq_true_eq, decide_eq_true_eq] at hs
          exact hk ((t.group_current r hr hs.1 g hs.2).trans t.epoch.symm)
      · rw [Function.update_of_ne hg]
        refine ⟨t.group_past g,?_,fun h => h,t.group_totals g⟩
        rintro ⟨⟩
        exact absurd rfl hg

theorem admitRequest (t : Tracks a h) (bytes : ℕ) (group : Option ℕ) :
    Tracks (a.admitRequest bytes group).1 (h.admitRequest bytes group) := by
  obtain ⟨hbe,hbt,hbg⟩ := t.joinGroup group
  set b := a.books.joinGroup group
  have hset : ∀ (q : Request) (s : SendAccounting N),
      s.admitRequest q.bytes = s + contribution q.bytes (.live false) := fun q s => admitRequest_eq s q.bytes false
  obtain ⟨h1,h2,h3⟩ := Books.foldl_update hset [(0,⟨bytes,b.epoch,false,group⟩)] b
  have hbooks : (a.admitRequest bytes group).1.books =
      b.update ⟨bytes,b.epoch,false,group⟩ (fun t => t.admitRequest bytes) := rfl
  simp only [List.foldl_cons, List.foldl_nil] at h1 h2 h3
  rw [← hbooks] at h1 h2 h3
  have hrec : (h.admitRequest bytes group).records =
      h.records ++ [⟨h.records.length + 1,bytes,h.epoch,group,.live false⟩] := rfl
  refine ⟨?_,?_,?_,h1.trans hbe,?_,?_,fun g => (h3 g).1.le.trans (hbg g).1,?_,?_⟩
  · rw [History.requests, hrec, List.filterMap_append, ← History.requests, ← t.requests,
      ← t.nextId, ← hbe]
    rfl
  · rw [hrec, List.map_append, t.ids, List.length_append, List.length_singleton, List.range'_1_concat]
    simp [Nat.add_comm]
  · rw [hrec, List.length_append, ← t.nextId]
    rfl
  · intro r hr
    rcases List.mem_append.mp (hrec ▸ hr) with hr | hr
    · exact t.past r hr
    · rw [List.mem_singleton.mp hr]
      exact le_rfl
  · rw [h2, hbt, t.totals, hrec, tally_append]
    congr 1
    simp [tally, hbe, History.admitRequest]
  · intro r hr he g hg
    rcases List.mem_append.mp (hrec ▸ hr) with hr | hr
    · exact (h3 g).1.trans ((hbg g).2.2.1 (t.group_current r hr he g hg))
    · rw [List.mem_singleton.mp hr] at hg
      exact (h3 g).1.trans ((hbg g).2.1 hg)
  · intro g hg
    rw [(h3 g).2, (hbg g).2.2.2 ((h3 g).1.symm.trans hg), hrec, tally_append]
    congr 1
    by_cases hk : group = some g
    · simp [tally, hbe, hk, History.admitRequest]
    · simp [tally, hk]

/-- Handing a whole batch to local I/O. -/
theorem beginBatch (t : Tracks a h) (ids : List ℕ) :
    Tracks (a.beginBatch ids).1 (h.step (.beginBatch ids)) := by
  have hfold : ∀ (ids : List ℕ) (a : LedgerMap N) (h : History), Tracks a h →
      Tracks (ids.foldl LedgerMap.activate a) (ids.foldl History.activate h) := by
    intro ids
    induction ids with
    | nil => exact fun _ _ t => t
    | cons id ids ih => exact fun _ _ t => ih _ _ (t.activate id)
  have hall : ids.all (fun id => (h.requests.lookup id).isSome) = ids.all a.contains := by
    rw [← t.requests]
    rfl
  rw [LedgerMap.beginBatch, History.step, hall]
  split
  · exact hfold ids a h t
  · exact t

theorem complete (t : Tracks a h) (id n : ℕ) : Tracks (a.complete id n) (h.complete id n) := by
  rw [LedgerMap.complete, LedgerMap.finish_eq_settleAll t.nodup]
  exact t.settleAll _ (by rintro q active ⟨⟩) (fun q s => complete_eq s q n)

theorem completeBatch (t : Tracks a h) (batch : List (ℕ × ℕ)) (n : ℕ) :
    Tracks (a.completeBatch batch n) (h.completeBatch batch n) := by
  induction batch generalizing a h n with
  | nil => exact t
  | cons p batch ih => exact ih (t.complete p.1 (min n p.2)) _

theorem terminateAll (t : Tracks a h) (p : ℕ → Request → Bool) (cause : Cause) :
    Tracks (a.settleAll p (fun q t => t.terminate q.bytes q.active cause)) (h.terminateAll p cause) :=
  t.settleAll p (by rintro q active ⟨⟩) (fun q s => terminate_eq s q cause)

theorem step (t : Tracks a h) (op : LedgerOp) : Tracks (a.step op).1 (h.step op) := by
  cases op with
  | admitRequest bytes group => exact t.admitRequest bytes group
  | «begin» id => exact t.activate id
  | beginBatch ids => exact t.beginBatch ids
  | complete id n => exact t.complete id n
  | completeBatch batch n => exact t.completeBatch batch n
  | discard id cause =>
    change Tracks (a.discard id cause) _
    rw [LedgerMap.discard, LedgerMap.finish_eq_settleAll t.nodup]
    exact t.terminateAll (fun k _ => k = id) cause
  | discardWaiting group cause =>
    cases group with
    | none => exact t
    | some g => exact t.terminateAll (fun _ q => Ledger.waits g q) cause
  | rollback id =>
    change Tracks (a.rollback id) _
    rw [LedgerMap.rollback, LedgerMap.finish_eq_settleAll t.nodup]
    exact t.settleAll _ (by rintro q active ⟨⟩) (fun q s => rollback_eq s q)
  | endAll cause => exact t.terminateAll (fun _ _ => true) cause
  | reset => exact t.reset
  | contains id => exact t
  | snapshot => exact t
  | groupSnapshot group => exact t

theorem new : Tracks (LedgerMap.new : LedgerMap N) .new where
  requests := rfl
  ids := rfl
  nextId := rfl
  epoch := rfl
  past _ hr := nomatch hr
  totals := rfl
  group_past _ := le_rfl
  group_current _ hr := nomatch hr
  group_totals _ _ := rfl

theorem run (t : Tracks a h) (ops : List LedgerOp) : Tracks (a.run ops).1 (h.run ops) := by
  induction ops generalizing a h with
  | nil => exact t
  | cons op ops ih => exact ih (t.step op)

/-- The totals of a group are those of its requests in this epoch. -/
theorem groupSnapshot (t : Tracks a h) (g : ℕ) :
    a.books.groupSnapshot (some g) =
      tally (fun e k => decide (e = h.epoch) && decide (k = some g)) h.records := by
  unfold Books.groupSnapshot
  dsimp only
  rw [t.epoch]
  split
  · rename_i he
    exact t.group_totals g he
  · rename_i he
    rw [tally, List.filter_eq_nil_iff.mpr]
    · rfl
    · intro r hr hs
      rw [Bool.and_eq_true, decide_eq_true_eq, decide_eq_true_eq] at hs
      exact he (t.group_current r hr hs.1 g hs.2)

end Tracks

/-- A run of the ledger tracks the history of its operations. -/
theorem Ledger.tracks_run (ops : List LedgerOp) :
    Tracks ((Ledger.new : Ledger N).run ops).1.toMap (History.new.run ops) := by
  rw [((Ledger.valid_new (N := N)).run ops).1.toMap]
  exact Tracks.new.run ops

end Wirestead.Diagnostics
