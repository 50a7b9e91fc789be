import Wirestead.Diagnostics.LedgerTracks

/-! # Ledgers that cannot be told apart

Two ledgers agree up to some old requests when they show the same totals and hold the
same other requests, the old ones being of earlier epochs. Every operation keeps the
agreement, and one that touches old requests only may be applied to one side alone.
-/
namespace Wirestead.Diagnostics
variable {N : Type*} [CommRing N]

namespace Books

/-- The same totals are shown, for the ledger and for every group. -/
structure Alike (b d : Books N) : Prop where
  epoch : b.epoch = d.epoch
  totals : b.totals = d.totals
  groups : ∀ g, b.groupSnapshot (some g) = d.groupSnapshot (some g)

theorem Alike.refl (b : Books N) : b.Alike b := ⟨rfl,rfl,fun _ => rfl⟩

theorem Alike.symm {b d : Books N} (h : b.Alike d) : d.Alike b :=
  ⟨h.epoch.symm,h.totals.symm,fun g => (h.groups g).symm⟩

theorem Alike.trans {b d e : Books N} (h : b.Alike d) (h' : d.Alike e) : b.Alike e :=
  ⟨h.epoch.trans h'.epoch,h.totals.trans h'.totals,fun g => (h.groups g).trans (h'.groups g)⟩

theorem Alike.groupSnapshot {b d : Books N} (h : b.Alike d) (group : Option ℕ) :
    b.groupSnapshot group = d.groupSnapshot group := by
  cases group with
  | none => rfl
  | some g => exact h.groups g

/-- The group of a request of this epoch belongs to it too. -/
def Joined (b : Books N) (q : Request) : Prop :=
  q.epoch = b.epoch → ∀ g, q.group = some g → (b.groups g).epoch = b.epoch

omit [CommRing N] in
theorem update_epochs (b : Books N) (q : Request) (f : SendAccounting N → SendAccounting N) :
    (b.update q f).epoch = b.epoch ∧ ∀ g, ((b.update q f).groups g).epoch = (b.groups g).epoch := by
  unfold update
  split
  · split
    · exact ⟨rfl,fun _ => rfl⟩
    · rename_i g hg
      refine ⟨rfl,fun k => ?_⟩
      dsimp only
      by_cases hk : k = g
      · rw [hk, Function.update_self]
      · rw [Function.update_of_ne hk]
  · exact ⟨rfl,fun _ => rfl⟩

omit [CommRing N] in
theorem update_stale {b : Books N} {q : Request} (h : q.epoch ≠ b.epoch)
    (f : SendAccounting N → SendAccounting N) : b.update q f = b := if_neg h

/-- An update shows in the group of the request and in no other. -/
theorem groupSnapshot_update {b : Books N} {q : Request} (hj : b.Joined q)
    (f : SendAccounting N → SendAccounting N) (g : ℕ) :
    (b.update q f).groupSnapshot (some g) =
      if q.epoch = b.epoch ∧ q.group = some g then f (b.groupSnapshot (some g))
      else b.groupSnapshot (some g) := by
  by_cases he : q.epoch = b.epoch
  · unfold update groupSnapshot
    rw [if_pos he]
    cases hg : q.group with
    | none => simp
    | some k =>
      dsimp only
      by_cases hk : g = k
      · subst hk
        have hcur := hj he g hg
        simp only [Function.update_self, hcur, he, and_self, if_true]
      · have hkg : ¬(q.epoch = b.epoch ∧ some k = some g) := fun h => hk (Option.some.inj h.2).symm
        simp only [Function.update_of_ne hk, if_neg hkg]
  · rw [update_stale he, if_neg (fun h => he h.1)]

theorem Alike.update {b d : Books N} (h : b.Alike d) {q : Request} (hb : b.Joined q) (hd : d.Joined q)
    (f : SendAccounting N → SendAccounting N) : (b.update q f).Alike (d.update q f) := by
  refine ⟨?_,?_,fun g => ?_⟩
  · rw [(b.update_epochs q f).1, (d.update_epochs q f).1, h.epoch]
  · by_cases he : q.epoch = b.epoch
    · unfold Books.update
      rw [if_pos he, if_pos (he.trans h.epoch)]
      split <;> exact congrArg f h.totals
    · rw [update_stale he, update_stale (fun hd => he (hd.trans h.epoch.symm)), h.totals]
  · rw [groupSnapshot_update hb, groupSnapshot_update hd, h.groups g, h.epoch]

/-- A group that joins the epoch showed nothing before. -/
theorem alike_joinGroup (b : Books N) (group : Option ℕ) : b.Alike (b.joinGroup group) := by
  cases group with
  | none => exact .refl b
  | some k =>
    unfold joinGroup
    dsimp only
    split
    · exact .refl b
    · rename_i hk
      refine ⟨rfl,rfl,fun g => ?_⟩
      unfold groupSnapshot
      dsimp only
      by_cases hg : g = k
      · subst hg
        simp only [Function.update_self, if_neg hk, if_true]
      · simp only [Function.update_of_ne hg]

/-- No group belongs to an epoch that has not begun. -/
def Past (b : Books N) : Prop := ∀ g, (b.groups g).epoch ≤ b.epoch

theorem joinGroup_epoch (b : Books N) (group : Option ℕ) :
    (b.joinGroup group).epoch = b.epoch := by
  unfold joinGroup
  split
  · rfl
  · split <;> rfl

theorem joinGroup_groups (b : Books N) (group : Option ℕ) (g : ℕ) :
    ((b.joinGroup group).groups g).epoch = if group = some g then b.epoch else (b.groups g).epoch := by
  cases group with
  | none => rfl
  | some k =>
    unfold joinGroup
    dsimp only
    split
    · rename_i hk
      by_cases hg : k = g
      · rw [if_pos (by rw [hg]), ← hg, hk]
      · rw [if_neg (fun h => hg (Option.some.inj h))]
    · dsimp only
      by_cases hg : g = k
      · rw [hg, Function.update_self, if_pos rfl]
      · rw [Function.update_of_ne hg, if_neg (fun h => hg (Option.some.inj h).symm)]

theorem Alike.reset {b d : Books N} (h : b.Alike d) (hb : b.Past) (hd : d.Past) :
    b.reset.Alike d.reset := by
  have hnone : ∀ e : Books N, e.Past → ∀ g, e.reset.groupSnapshot (some g) = 0 := by
    intro e he g
    have := he g
    exact if_neg (show (e.groups g).epoch ≠ e.epoch + 1 by omega)
  exact ⟨congrArg (· + 1) h.epoch,rfl,fun g => (hnone b hb g).trans (hnone d hd g).symm⟩

/-- The books after a list of requests was settled. -/
def settle (b : Books N) (xs : List (ℕ × Request))
    (f : Request → SendAccounting N → SendAccounting N) : Books N :=
  xs.foldl (fun b x => b.update x.2 (f x.2)) b

variable (f : Request → SendAccounting N → SendAccounting N)

omit [CommRing N] in
theorem settle_epochs (b : Books N) (xs : List (ℕ × Request)) :
    (b.settle xs f).epoch = b.epoch ∧ ∀ g, ((b.settle xs f).groups g).epoch = (b.groups g).epoch := by
  induction xs generalizing b with
  | nil => exact ⟨rfl,fun _ => rfl⟩
  | cons x xs ih =>
    obtain ⟨h1,h2⟩ := b.update_epochs x.2 (f x.2)
    obtain ⟨h3,h4⟩ := ih (b.update x.2 (f x.2))
    exact ⟨h3.trans h1,fun g => (h4 g).trans (h2 g)⟩

omit [CommRing N] in
/-- Requests of earlier epochs do not count. -/
theorem settle_filter {b : Books N} {xs : List (ℕ × Request)} {old : ℕ → Bool}
    (h : ∀ x ∈ xs, old x.1 = true → x.2.epoch ≠ b.epoch) :
    b.settle xs f = b.settle (xs.filter (fun x => !old x.1)) f := by
  induction xs generalizing b with
  | nil => rfl
  | cons x xs ih =>
    have hrest : ∀ y ∈ xs, old y.1 = true → y.2.epoch ≠ (b.update x.2 (f x.2)).epoch := by
      intro y hy hold
      rw [(b.update_epochs x.2 (f x.2)).1]
      exact h y (List.mem_cons_of_mem _ hy) hold
    have hx : b.settle (x :: xs) f = (b.update x.2 (f x.2)).settle xs f := rfl
    rw [hx, ih hrest, List.filter_cons]
    cases hold : old x.1 with
    | true =>
      rw [update_stale (h x List.mem_cons_self hold)]
      rfl
    | false => rfl

theorem Alike.settle {b d : Books N} (h : b.Alike d) {xs : List (ℕ × Request)}
    (hb : ∀ x ∈ xs, b.Joined x.2) (hd : ∀ x ∈ xs, d.Joined x.2) : (b.settle xs f).Alike (d.settle xs f) := by
  induction xs generalizing b d with
  | nil => exact h
  | cons x xs ih =>
    have hnext : ∀ e : Books N, (∀ y ∈ x :: xs, e.Joined y.2) →
        ∀ y ∈ xs, (e.update x.2 (f x.2)).Joined y.2 := by
      intro e he y hy hye g hg
      obtain ⟨h1,h2⟩ := e.update_epochs x.2 (f x.2)
      rw [h1, h2]
      exact he y (List.mem_cons_of_mem _ hy) (hye.trans h1) g hg
    exact ih (h.update (hb x List.mem_cons_self) (hd x List.mem_cons_self) (f x.2)) (hnext b hb) (hnext d hd)

end Books

namespace LedgerMap

/-- Ids are unique and were issued, requests and groups are of this epoch or of an
earlier one, and the groups of the requests of this epoch have joined it. -/
structure Sound (a : LedgerMap N) : Prop where
  nodup : (a.requests.map Prod.fst).Nodup
  issued : ∀ p ∈ a.requests, p.1 ≤ a.nextId
  past : ∀ p ∈ a.requests, p.2.epoch ≤ a.books.epoch
  groups : a.books.Past
  joined : ∀ p ∈ a.requests, a.books.Joined p.2

namespace Sound
variable {a d : LedgerMap N}

omit [CommRing N] in
/-- Fewer requests of the same epochs and groups, on books of the same epochs. -/
theorem shrink (h : a.Sound) (hs : a.Shrinks d)
    (hmem : ∀ p ∈ d.requests, ∃ q ∈ a.requests, p.2.epoch = q.2.epoch ∧ p.2.group = q.2.group)
    (hepoch : d.books.epoch = a.books.epoch)
    (hgroups : ∀ g, (d.books.groups g).epoch = (a.books.groups g).epoch) : d.Sound where
  nodup := hs.keys.nodup h.nodup
  issued p hp := by
    obtain ⟨q,hq,he⟩ := List.mem_map.mp (hs.keys.subset (List.mem_map_of_mem hp))
    rw [hs.nextId, ← he]
    exact h.issued q hq
  past p hp := by
    obtain ⟨q,hq,he,-⟩ := hmem p hp
    rw [he, hepoch]
    exact h.past q hq
  groups g := by
    rw [hgroups, hepoch]
    exact h.groups g
  joined p hp he g hg := by
    obtain ⟨q,hq,hqe,hqg⟩ := hmem p hp
    rw [hgroups, hepoch]
    exact h.joined q hq (hqe.symm.trans (he.trans hepoch)) g (hqg.symm.trans hg)

omit [CommRing N] in
theorem settleAll (h : a.Sound) (p : ℕ → Request → Bool)
    (f : Request → SendAccounting N → SendAccounting N) : (a.settleAll p f).Sound := by
  obtain ⟨h1,h2⟩ := a.books.settle_epochs f (a.requests.filter (fun x => p x.1 x.2))
  exact h.shrink ⟨List.filter_sublist.map _,rfl⟩
    (fun x hx => ⟨x,(List.mem_filter.mp hx).1,rfl,rfl⟩) h1 h2

omit [CommRing N] in
theorem activate (h : a.Sound) (id : ℕ) : (a.activate id).Sound := by
  refine h.shrink (a.shrinks_activate id) (fun p hp => ?_) rfl (fun _ => rfl)
  obtain ⟨q,hq,rfl⟩ := List.mem_map.mp hp
  refine ⟨q,hq,?_⟩
  split <;> exact ⟨rfl,rfl⟩

theorem joinGroup (h : a.Sound) (group : Option ℕ) :
    ({ a with books := a.books.joinGroup group } : LedgerMap N).Sound where
  nodup := h.nodup
  issued := h.issued
  past p hp := by
    rw [Books.joinGroup_epoch]
    exact h.past p hp
  groups g := by
    rw [Books.joinGroup_groups, Books.joinGroup_epoch]
    split
    · exact le_rfl
    · exact h.groups g
  joined p hp he g hg := by
    rw [Books.joinGroup_groups, Books.joinGroup_epoch]
    split
    · rfl
    · exact h.joined p hp (he.trans (a.books.joinGroup_epoch group)) g hg

theorem admitRequest (h : a.Sound) (bytes : ℕ) (group : Option ℕ) :
    (a.admitRequest bytes group).1.Sound := by
  have hj := h.joinGroup group
  have hself : ∀ g, group = some g →
      ((a.books.joinGroup group).groups g).epoch = (a.books.joinGroup group).epoch := by
    intro g hg
    rw [Books.joinGroup_groups, if_pos hg, Books.joinGroup_epoch]
  obtain ⟨h1,h2⟩ := (a.books.joinGroup group).update_epochs
    ⟨bytes,(a.books.joinGroup group).epoch,false,group⟩ (fun t => t.admitRequest bytes)
  refine ⟨?_,?_,?_,?_,?_⟩
  · simp only [LedgerMap.admitRequest, List.map_append, List.map_cons, List.map_nil]
    refine List.nodup_append.mpr ⟨h.nodup,List.nodup_singleton _,?_⟩
    intro id hid k hk
    obtain ⟨p,hp,rfl⟩ := List.mem_map.mp hid
    have := h.issued p hp
    rw [List.mem_singleton.mp hk]
    omega
  · intro p hp
    rcases List.mem_append.mp hp with hp | hp
    · exact (h.issued p hp).trans (Nat.le_succ _)
    · rw [List.mem_singleton.mp hp]
      exact le_rfl
  · intro p hp
    rw [show (a.admitRequest bytes group).1.books.epoch = _ from h1]
    rcases List.mem_append.mp hp with hp | hp
    · exact hj.past p hp
    · rw [List.mem_singleton.mp hp]
  · intro g
    rw [show (a.admitRequest bytes group).1.books.epoch = _ from h1]
    exact (h2 g).le.trans (hj.groups g)
  · intro p hp he g hg
    rw [show (a.admitRequest bytes group).1.books.epoch = _ from h1] at he ⊢
    refine (h2 g).trans ?_
    rcases List.mem_append.mp hp with hp | hp
    · exact hj.joined p hp he g hg
    · rw [List.mem_singleton.mp hp] at hg
      exact hself g hg

omit [CommRing N] in
theorem finish (h : a.Sound) (id : ℕ) (f : Request → SendAccounting N → SendAccounting N) :
    (a.finish id f).Sound := by
  rw [finish_eq_settleAll h.nodup]
  exact h.settleAll _ f

theorem completeBatch (h : a.Sound) (batch : List (ℕ × ℕ)) (n : ℕ) : (a.completeBatch batch n).Sound := by
  induction batch generalizing a n with
  | nil => exact h
  | cons p batch ih => exact ih (h.finish p.1 _) _

omit [CommRing N] in
theorem beginBatch (h : a.Sound) (ids : List ℕ) : (a.beginBatch ids).1.Sound := by
  have hfold : ∀ (ids : List ℕ) (a : LedgerMap N), a.Sound → (ids.foldl LedgerMap.activate a).Sound := by
    intro ids
    induction ids with
    | nil => exact fun _ h => h
    | cons id ids ih => exact fun a h => ih _ (h.activate id)
  unfold LedgerMap.beginBatch
  split
  · exact hfold ids a h
  · exact h

theorem reset (h : a.Sound) : a.reset.Sound where
  nodup := h.nodup
  issued := h.issued
  past p hp := (h.past p hp).trans (Nat.le_succ _)
  groups g := (h.groups g).trans (Nat.le_succ _)
  joined p hp he := by
    have := h.past p hp
    change p.2.epoch = a.books.epoch + 1 at he
    omega

theorem step (h : a.Sound) (op : LedgerOp) : (a.step op).1.Sound := by
  cases op with
  | admitRequest bytes group => exact h.admitRequest bytes group
  | «begin» id => exact h.activate id
  | beginBatch ids => exact h.beginBatch ids
  | complete id n => exact h.finish id _
  | completeBatch batch n => exact h.completeBatch batch n
  | discard id cause => exact h.finish id _
  | discardWaiting group cause =>
    cases group with
    | none => exact h
    | some g => exact h.settleAll (fun _ q => Ledger.waits g q) (fun q t => t.terminate q.bytes q.active cause)
  | rollback id => exact h.finish id _
  | endAll cause => exact h.settleAll (fun _ _ => true) (fun q t => t.terminate q.bytes q.active cause)
  | reset => exact h.reset
  | contains id => exact h
  | snapshot => exact h
  | groupSnapshot group => exact h

theorem new : (LedgerMap.new : LedgerMap N).Sound where
  nodup := List.nodup_nil
  issued _ hp := nomatch hp
  past _ hp := nomatch hp
  groups _ := le_rfl
  joined _ hp := nomatch hp

end Sound
/-- The same books are shown, and the requests that are not old are the same. The old
ones are of earlier epochs. -/
structure Agree (old : ℕ → Bool) (a d : LedgerMap N) : Prop where
  left : a.Sound
  right : d.Sound
  nextId : a.nextId = d.nextId
  young : ∀ id, a.nextId < id → old id = false
  requests : a.requests.filter (fun p => !old p.1) = d.requests.filter (fun p => !old p.1)
  stale_left : ∀ p ∈ a.requests, old p.1 = true → p.2.epoch ≠ a.books.epoch
  stale_right : ∀ p ∈ d.requests, old p.1 = true → p.2.epoch ≠ d.books.epoch
  books : a.books.Alike d.books

namespace Agree
variable {old : ℕ → Bool} {a d : LedgerMap N}

theorem symm (h : Agree old a d) : Agree old d a :=
  ⟨h.right,h.left,h.nextId.symm,fun id hid => h.young id (h.nextId ▸ hid),h.requests.symm,h.stale_right,
    h.stale_left,h.books.symm⟩

/-- An operation on old requests shows nowhere. -/
theorem settleAll_right (h : Agree old a d) {p : ℕ → Request → Bool}
    (hp : ∀ id q, p id q = true → old id = true) (f : Request → SendAccounting N → SendAccounting N) :
    Agree old a (d.settleAll p f) := by
  have hbooks : (d.settleAll p f).books = d.books := by
    have hnone : (d.requests.filter (fun x => p x.1 x.2)).filter (fun x => !old x.1) = [] := by
      refine List.filter_eq_nil_iff.mpr (fun x hx => ?_)
      rw [hp x.1 x.2 (List.mem_filter.mp hx).2]
      decide
    have hstale : ∀ x ∈ d.requests.filter (fun x => p x.1 x.2), old x.1 = true →
        x.2.epoch ≠ d.books.epoch := fun x hx => h.stale_right x (List.mem_filter.mp hx).1
    have hfold := Books.settle_filter f hstale
    rw [hnone] at hfold
    exact hfold
  refine ⟨h.left,h.right.settleAll p f,h.nextId,h.young,h.requests.trans ?_,h.stale_left,?_,?_⟩
  · refine Eq.trans ?_ List.filter_filter.symm
    refine List.filter_congr (fun x _ => ?_)
    cases hx : p x.1 x.2 with
    | true => simp [hp x.1 x.2 hx]
    | false => simp
  · rw [hbooks]
    exact fun x hx => h.stale_right x (List.mem_filter.mp hx).1
  · rw [hbooks]
    exact h.books

/-- The same operation on both. -/
theorem settleAll (h : Agree old a d) (p : ℕ → Request → Bool)
    (f : Request → SendAccounting N → SendAccounting N) :
    Agree old (a.settleAll p f) (d.settleAll p f) := by
  have hcomm : ∀ (xs : List (ℕ × Request)) (r : ℕ × Request → Bool),
      (xs.filter r).filter (fun x => !old x.1) = (xs.filter (fun x => !old x.1)).filter r :=
    fun xs r => List.filter_comm _ _ xs
  have hbooks : ∀ (e : LedgerMap N), (∀ x ∈ e.requests, old x.1 = true → x.2.epoch ≠ e.books.epoch) →
      (e.settleAll p f).books =
        e.books.settle ((e.requests.filter (fun x => !old x.1)).filter (fun x => p x.1 x.2)) f := by
    intro e he
    rw [← hcomm]
    exact Books.settle_filter f (fun x hx => he x (List.mem_filter.mp hx).1)
  have hepoch : ∀ (e : LedgerMap N), (e.settleAll p f).books.epoch = e.books.epoch :=
    fun e => (e.books.settle_epochs f _).1
  have hjoined : ∀ (e : LedgerMap N), e.Sound →
      ∀ x ∈ (e.requests.filter (fun x => !old x.1)).filter (fun x => p x.1 x.2), e.books.Joined x.2 :=
    fun e he x hx => he.joined x (List.mem_filter.mp (List.mem_filter.mp hx).1).1
  refine ⟨h.left.settleAll p f,h.right.settleAll p f,h.nextId,h.young,?_,?_,?_,?_⟩
  · refine (hcomm _ _).trans (Eq.trans ?_ (hcomm _ _).symm)
    rw [h.requests]
  · rw [hepoch]
    exact fun x hx => h.stale_left x (List.mem_filter.mp hx).1
  · rw [hepoch]
    exact fun x hx => h.stale_right x (List.mem_filter.mp hx).1
  · rw [hbooks a h.stale_left, hbooks d h.stale_right, ← h.requests]
    refine h.books.settle f (hjoined a h.left) ?_
    rw [h.requests]
    exact hjoined d h.right

theorem filter_alterKey (xs : List (ℕ × Request)) (id : ℕ) (g : Request → Request) :
    (alterKey xs id g).filter (fun p => !old p.1) = alterKey (xs.filter (fun p => !old p.1)) id g := by
  unfold alterKey
  rw [List.filter_map]
  congr 1
  refine List.filter_congr (fun p _ => ?_)
  simp only [Function.comp_apply]
  split <;> rfl

theorem mem_alterKey {xs : List (ℕ × Request)} {id : ℕ} {p : ℕ × Request}
    (hp : p ∈ alterKey xs id (fun r => { r with active := true })) :
    ∃ q ∈ xs, p.1 = q.1 ∧ p.2.epoch = q.2.epoch := by
  obtain ⟨q,hq,rfl⟩ := List.mem_map.mp hp
  refine ⟨q,hq,?_⟩
  split <;> exact ⟨rfl,rfl⟩

omit [CommRing N] in
theorem stale_activate {e : LedgerMap N} (h : ∀ p ∈ e.requests, old p.1 = true → p.2.epoch ≠ e.books.epoch)
    (id : ℕ) : ∀ p ∈ (e.activate id).requests, old p.1 = true → p.2.epoch ≠ e.books.epoch := by
  intro p hp hold
  obtain ⟨q,hq,h1,h2⟩ := mem_alterKey hp
  rw [h2]
  exact h q hq (h1 ▸ hold)

theorem activate (h : Agree old a d) (id : ℕ) : Agree old (a.activate id) (d.activate id) := by
  refine ⟨h.left.activate id,h.right.activate id,h.nextId,h.young,?_,stale_activate h.stale_left id,
    stale_activate h.stale_right id,h.books⟩
  unfold LedgerMap.activate
  dsimp only
  rw [filter_alterKey, filter_alterKey, h.requests]

theorem activate_right (h : Agree old a d) {id : ℕ} (hold : old id = true) : Agree old a (d.activate id) := by
  refine ⟨h.left,h.right.activate id,h.nextId,h.young,h.requests.trans ?_,h.stale_left,
    stale_activate h.stale_right id,h.books⟩
  unfold LedgerMap.activate
  dsimp only
  rw [filter_alterKey]
  refine (List.map_id _).symm.trans (List.map_congr_left (fun p hp => ?_))
  have hne : ¬p.1 = id := by
    rintro rfl
    simp [hold] at hp
  rw [if_neg hne]
  rfl

theorem finish_right (h : Agree old a d) {id : ℕ} (hold : old id = true)
    (f : Request → SendAccounting N → SendAccounting N) : Agree old a (d.finish id f) := by
  rw [finish_eq_settleAll h.right.nodup]
  refine h.settleAll_right (fun k _ hk => ?_) f
  rw [of_decide_eq_true hk]
  exact hold

theorem finish (h : Agree old a d) (id : ℕ) (f : Request → SendAccounting N → SendAccounting N) :
    Agree old (a.finish id f) (d.finish id f) := by
  rw [finish_eq_settleAll h.left.nodup, finish_eq_settleAll h.right.nodup]
  exact h.settleAll _ f

theorem completeBatch (h : Agree old a d) (batch : List (ℕ × ℕ)) (n : ℕ) :
    Agree old (a.completeBatch batch n) (d.completeBatch batch n) := by
  induction batch generalizing a d n with
  | nil => exact h
  | cons p batch ih => exact ih (h.finish p.1 _) _

theorem completeBatch_right (h : Agree old a d) {batch : List (ℕ × ℕ)} (hold : ∀ p ∈ batch, old p.1 = true)
    (n : ℕ) : Agree old a (d.completeBatch batch n) := by
  induction batch generalizing d n with
  | nil => exact h
  | cons p batch ih =>
    exact ih (h.finish_right (hold p List.mem_cons_self) _) (fun q hq => hold q (List.mem_cons_of_mem _ hq)) _

/-- A request that is not old is live in both or in neither. -/
theorem contains (h : Agree old a d) {id : ℕ} (hid : old id = false) : a.contains id = d.contains id := by
  have hkeys : ∀ e : LedgerMap N, e.contains id = true ↔
      id ∈ (e.requests.filter (fun p => !old p.1)).map Prod.fst := by
    intro e
    rw [e.contains_iff, List.mem_map, List.mem_map]
    constructor
    · rintro ⟨p,hp,rfl⟩
      exact ⟨p,List.mem_filter.mpr ⟨hp,by simp [hid]⟩,rfl⟩
    · rintro ⟨p,hp,rfl⟩
      exact ⟨p,(List.mem_filter.mp hp).1,rfl⟩
  rw [Bool.eq_iff_iff, hkeys, hkeys, h.requests]

theorem activateAll (h : Agree old a d) (ids : List ℕ) :
    Agree old (ids.foldl LedgerMap.activate a) (ids.foldl LedgerMap.activate d) := by
  induction ids generalizing a d with
  | nil => exact h
  | cons id ids ih => exact ih (h.activate id)

theorem activateAll_right (h : Agree old a d) {ids : List ℕ} (hold : ∀ id ∈ ids, old id = true) :
    Agree old a (ids.foldl LedgerMap.activate d) := by
  induction ids generalizing d with
  | nil => exact h
  | cons id ids ih =>
    exact ih (h.activate_right (hold id List.mem_cons_self)) (fun k hk => hold k (List.mem_cons_of_mem _ hk))

theorem beginBatch_right (h : Agree old a d) {ids : List ℕ} (hold : ∀ id ∈ ids, old id = true) :
    Agree old a (d.beginBatch ids).1 := by
  unfold LedgerMap.beginBatch
  split
  · exact h.activateAll_right hold
  · exact h

/-- A batch must not mix old requests with others: it is handed over as a whole. -/
theorem beginBatch (h : Agree old a d) {ids : List ℕ}
    (hids : (∀ id ∈ ids, old id = true) ∨ ∀ id ∈ ids, old id = false) :
    Agree old (a.beginBatch ids).1 (d.beginBatch ids).1 := by
  obtain hold | hnew := hids
  · exact (h.beginBatch_right hold).symm.beginBatch_right hold |>.symm
  · have hall : ids.all a.contains = ids.all d.contains := by
      rw [Bool.eq_iff_iff, List.all_eq_true, List.all_eq_true]
      exact forall₂_congr (fun id hid => by rw [h.contains (hnew id hid)])
    unfold LedgerMap.beginBatch
    rw [hall]
    split
    · exact h.activateAll ids
    · exact h

theorem joinGroup (h : Agree old a d) (group : Option ℕ) :
    Agree old a { d with books := d.books.joinGroup group } := by
  refine ⟨h.left,h.right.joinGroup group,h.nextId,h.young,h.requests,h.stale_left,?_,
    h.books.trans (d.books.alike_joinGroup group)⟩
  intro p hp hold
  rw [Books.joinGroup_epoch]
  exact h.stale_right p hp hold

theorem admitRequest (h : Agree old a d) (bytes : ℕ) (group : Option ℕ) :
    Agree old (a.admitRequest bytes group).1 (d.admitRequest bytes group).1 := by
  have hj := ((h.joinGroup group).symm.joinGroup group).symm
  have hnew : ∀ e : LedgerMap N, old (e.nextId + 1) = false →
      ((e.admitRequest bytes group).1.requests).filter (fun p => !old p.1) =
        e.requests.filter (fun p => !old p.1) ++
          [(e.nextId + 1,⟨bytes,(e.books.joinGroup group).epoch,false,group⟩)] := by
    intro e he
    rw [LedgerMap.admitRequest, List.filter_append, List.filter_singleton]
    simp [he]
  have hstale : ∀ e : LedgerMap N, old (e.nextId + 1) = false →
      (∀ p ∈ e.requests, old p.1 = true → p.2.epoch ≠ e.books.epoch) →
      ∀ p ∈ (e.admitRequest bytes group).1.requests, old p.1 = true →
        p.2.epoch ≠ (e.admitRequest bytes group).1.books.epoch := by
    intro e he hs p hp hold
    rw [show (e.admitRequest bytes group).1.books.epoch = _ from
      ((e.books.joinGroup group).update_epochs _ _).1, Books.joinGroup_epoch]
    rcases List.mem_append.mp hp with hp | hp
    · exact hs p hp hold
    · rw [List.mem_singleton.mp hp] at hold
      exact absurd (he.symm.trans hold) (by decide)
  have hself : ∀ b : Books N, (b.joinGroup group).Joined ⟨bytes,(b.joinGroup group).epoch,false,group⟩ := by
    intro b _ g hg
    rw [Books.joinGroup_groups, if_pos hg, Books.joinGroup_epoch]
  have hya := h.young _ (Nat.lt_succ_self a.nextId)
  have hyd : old (d.nextId + 1) = false := h.nextId ▸ hya
  refine ⟨h.left.admitRequest bytes group,h.right.admitRequest bytes group,congrArg (· + 1) h.nextId,?_,?_,
    hstale a hya h.stale_left,hstale d hyd h.stale_right,?_⟩
  · exact fun id hid => h.young id ((Nat.lt_succ_self _).trans hid)
  · rw [hnew a hya, hnew d hyd, h.requests, h.nextId, hj.books.epoch]
  · have he := hj.books.epoch
    have hb := hself a.books
    have hd := hself d.books
    change (a.books.joinGroup group).epoch = (d.books.joinGroup group).epoch at he
    have hbooks : (d.admitRequest bytes group).1.books = (d.books.joinGroup group).update
        ⟨bytes,(a.books.joinGroup group).epoch,false,group⟩ (fun t => t.admitRequest bytes) := by
      rw [he]
      rfl
    rw [← he] at hd
    rw [hbooks]
    exact hj.books.update hb hd (fun t => t.admitRequest bytes)

theorem reset (h : Agree old a d) : Agree old a.reset d.reset where
  left := h.left.reset
  right := h.right.reset
  nextId := h.nextId
  young := h.young
  requests := h.requests
  stale_left p hp _ := by
    have := h.left.past p hp
    exact (show p.2.epoch < a.books.epoch + 1 by omega).ne
  stale_right p hp _ := by
    have := h.right.past p hp
    exact (show p.2.epoch < d.books.epoch + 1 by omega).ne
  books := h.books.reset h.left.groups h.right.groups

/-- Both ledgers make the operation. -/
theorem step (h : Agree old a d) {op : LedgerOp}
    (hop : ∀ ids, op = .beginBatch ids → (∀ id ∈ ids, old id = true) ∨ ∀ id ∈ ids, old id = false) :
    Agree old (a.step op).1 (d.step op).1 := by
  cases op with
  | admitRequest bytes group => exact h.admitRequest bytes group
  | «begin» id => exact h.activate id
  | beginBatch ids => exact h.beginBatch (hop ids rfl)
  | complete id n => exact h.finish id _
  | completeBatch batch n => exact h.completeBatch batch n
  | discard id cause => exact h.finish id _
  | discardWaiting group cause =>
    cases group with
    | none => exact h
    | some g => exact h.settleAll (fun _ q => Ledger.waits g q) (fun q t => t.terminate q.bytes q.active cause)
  | rollback id => exact h.finish id _
  | endAll cause => exact h.settleAll (fun _ _ => true) (fun q t => t.terminate q.bytes q.active cause)
  | reset => exact h.reset
  | contains id => exact h
  | snapshot => exact h
  | groupSnapshot group => exact h

end Agree
end LedgerMap
end Wirestead.Diagnostics
