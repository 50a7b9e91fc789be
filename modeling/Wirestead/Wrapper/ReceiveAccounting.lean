import Wirestead.Wrapper.ReceiveBudget

/-! # The receive budget is exact

The counters are compared with the live charges and with what the calls under way have
taken so far. A call that is picked is put in front of the others, and its access moves
its bytes from one counter to the next or into a charge.
-/
namespace Wirestead.Wrapper
open Sizes

/-- The bytes of the charges whose scope `p` selects. -/
def weigh (p : ℕ → Bool) (cs : List ReceiveCharge) : ℕ :=
  (cs.map (fun c => if p c.scope then c.bytes else 0)).sum

theorem weigh_cons (p : ℕ → Bool) (c : ReceiveCharge) (cs : List ReceiveCharge) :
    weigh p (c :: cs) = (if p c.scope then c.bytes else 0) + weigh p cs := rfl

theorem weigh_erase (p : ℕ → Bool) {c : ReceiveCharge} {cs : List ReceiveCharge} (h : c ∈ cs) :
    (if p c.scope then c.bytes else 0) + weigh p (cs.erase c) = weigh p cs :=
  List.sum_map_erase (fun c : ReceiveCharge => if p c.scope then c.bytes else 0) h

/-- Replacing a charge by one of the same scope. -/
theorem weigh_put (p : ℕ → Bool) {c d : ReceiveCharge} {cs : List ReceiveCharge} (hc : c ∈ cs)
    (hs : d.scope = c.scope) :
    weigh p (d :: cs.erase c) + (if p c.scope then c.bytes else 0) =
      weigh p cs + (if p c.scope then d.bytes else 0) := by
  rw [← weigh_erase p hc, weigh_cons, hs]
  omega

theorem weigh_le (p : ℕ → Bool) (cs : List ReceiveCharge) : weigh p cs ≤ weigh (fun _ => true) cs := by
  induction cs with
  | nil => exact le_rfl
  | cons c cs ih =>
    rw [weigh_cons, weigh_cons, if_pos rfl]
    split <;> omega

theorem weigh_of_notMem {id : ℕ} {cs : List ReceiveCharge} (h : id ∉ cs.map (·.scope)) :
    weigh (· = id) cs = 0 := by
  induction cs with
  | nil => rfl
  | cons c cs ih =>
    rw [List.map_cons, List.mem_cons, not_or] at h
    rw [weigh_cons, if_neg (by simpa using Ne.symm h.1), ih h.2]

/-- The bytes that a charge in use by `shrink` keeps. -/
def ReleaseCause.kept : ReleaseCause → ℕ
  | .shrunk _ kept => kept
  | .failedReserve | .destroyed => 0

namespace BudgetCall

/-- What a call under way has in the budget's counter. -/
def taken : BudgetCall → ℕ
  | .raising _ bytes _ _ | .entering _ bytes _ | .marking _ bytes _ _ | .making _ bytes _ => bytes
  | .leaving _ bytes cause | .returning _ bytes cause => bytes + cause.kept
  | .opening _ | .storing _ => 0

/-- What it has in its scope's counter. -/
def entered : BudgetCall → ℕ
  | .marking _ bytes _ _ | .making _ bytes _ => bytes
  | .leaving _ bytes cause => bytes + cause.kept
  | .returning _ _ cause => cause.kept
  | .opening _ | .raising _ _ _ _ | .entering _ _ _ | .storing _ => 0

/-- The sessions it has counted without a scope. -/
def opened : BudgetCall → ℕ
  | .opening _ => 1
  | _ => 0

/-- How far it is still to raise the peak. -/
def raiseTo : BudgetCall → ℕ
  | .raising _ _ value _ => value
  | _ => 0

theorem entered_le (c : BudgetCall) : c.entered ≤ c.taken := by
  cases c <;> simp [entered, taken]

end BudgetCall

/-- The value that a step of `reset_stats` stores in the peak. -/
def BudgetOp.stored : BudgetOp → Option ℕ
  | .advance (.storing loaded) => some loaded
  | _ => none

/-- What calls have in the budget's counter, and in that of a scope. -/
def takenBy (calls : List BudgetCall) : ℕ := (calls.map (·.taken)).sum

def enteredBy (calls : List BudgetCall) (id : ℕ) : ℕ :=
  (calls.map (fun c => if c.scope = some id then c.entered else 0)).sum

def openedBy (calls : List BudgetCall) : ℕ := (calls.map (·.opened)).sum

section Calls
variable (c : BudgetCall) (calls : List BudgetCall) (id : ℕ)

@[simp] theorem takenBy_cons : takenBy (c :: calls) = c.taken + takenBy calls := rfl
@[simp] theorem openedBy_cons : openedBy (c :: calls) = c.opened + openedBy calls := rfl
@[simp] theorem enteredBy_cons :
    enteredBy (c :: calls) id = (if c.scope = some id then c.entered else 0) + enteredBy calls id := rfl

theorem enteredBy_le : enteredBy calls id ≤ takenBy calls := by
  induction calls with
  | nil => exact le_rfl
  | cons c calls ih =>
    have := c.entered_le
    rw [enteredBy_cons, takenBy_cons]
    split <;> omega

variable {calls id} in
theorem enteredBy_of_notMem (h : id ∉ calls.filterMap BudgetCall.scope) : enteredBy calls id = 0 := by
  apply List.sum_eq_zero
  intro n hn
  obtain ⟨c,hc,rfl⟩ := List.mem_map.mp hn
  exact if_neg fun hs => h (List.mem_filterMap.mpr ⟨c,hc,hs⟩)

end Calls

namespace ReceiveBudget
variable {limits : BudgetLimits} {s t : ReceiveBudget}

def ids (s : ReceiveBudget) : List ℕ := s.scopes.map (·.id)

/-- The counters say what the charges and the calls under way weigh. -/
structure Balanced (limits : BudgetLimits) (s : ReceiveBudget) : Prop where
  used : s.used = weigh (fun _ => true) s.charges + takenBy s.calls
  used_le : s.used ≤ limits.maxBytes
  scope_used : ∀ scope ∈ s.scopes,
    scope.used = weigh (· = scope.id) s.charges + enteredBy s.calls scope.id

/-- Every charge and call has its scope. -/
structure Housed (s : ReceiveBudget) : Prop where
  nodup : s.ids.Nodup
  ids_lt : ∀ id ∈ s.ids, id < s.nextId
  homed : ∀ id ∈ s.referenced, id ∈ s.ids

structure Counted (limits : BudgetLimits) (s : ReceiveBudget) : Prop where
  sessions : s.sessions = s.scopes.length + openedBy s.calls
  sessions_le : s.sessions ≤ limits.maxSessions

structure Valid (limits : BudgetLimits) (s : ReceiveBudget) : Prop where
  balanced : s.Balanced limits
  housed : s.Housed
  counted : s.Counted limits

theorem scope?_some {id : ℕ} {scope : ReceiveScope} (h : s.scope? id = some scope) :
    scope ∈ s.scopes ∧ scope.id = id :=
  ⟨List.mem_of_find?_eq_some h,by simpa using List.find?_some h⟩

theorem charge?_some {id : ℕ} {c : ReceiveCharge} (h : s.charge? id = some c) :
    c ∈ s.charges ∧ c.id = id :=
  ⟨List.mem_of_find?_eq_some h,by simpa using List.find?_some h⟩

/-- A scope that is listed is found by its id. -/
theorem Housed.scope?_eq (h : s.Housed) {scope : ReceiveScope} (hs : scope ∈ s.scopes) :
    s.scope? scope.id = some scope := by
  cases hf : s.scope? scope.id with
  | none =>
    have := List.find?_eq_none.mp hf scope hs
    simp at this
  | some other =>
    obtain ⟨ho,hid⟩ := scope?_some hf
    rw [List.inj_on_of_nodup_map h.nodup ho hs hid]

theorem Housed.scope?_of_mem (h : s.Housed) {id : ℕ} (hid : id ∈ s.ids) :
    ∃ scope, s.scope? id = some scope ∧ scope ∈ s.scopes ∧ scope.id = id := by
  obtain ⟨scope,hs,rfl⟩ := List.mem_map.mp hid
  exact ⟨scope,h.scope?_eq hs,hs,rfl⟩

section SetScope
variable (new : ReceiveScope)

@[simp] theorem setScope_ids : (s.setScope new).ids = s.ids := by
  simp only [ids, setScope, List.map_map]
  refine List.map_congr_left (fun scope _ => ?_)
  simp only [Function.comp_apply]
  split
  · exact Eq.symm ‹_›
  · rfl

@[simp] theorem setScope_length : (s.setScope new).scopes.length = s.scopes.length :=
  List.length_map _

theorem mem_setScope {scope : ReceiveScope} (h : scope ∈ (s.setScope new).scopes) :
    scope = new ∨ scope ∈ s.scopes ∧ scope.id ≠ new.id := by
  obtain ⟨old,ho,rfl⟩ := List.mem_map.mp h
  split
  · exact .inl rfl
  · exact .inr ⟨ho,‹_›⟩

end SetScope

theorem mem_referenced {id : ℕ} : id ∈ s.referenced ↔
    (∃ c ∈ s.charges, c.scope = id) ∨ ∃ c ∈ s.calls, c.scope = some id := by
  simp [referenced]

/-- The scopes are the same but for their counters. -/
theorem Housed.congr (h : s.Housed) (hids : t.ids = s.ids) (hn : s.nextId ≤ t.nextId)
    (href : ∀ id ∈ t.referenced, id ∈ s.ids) : t.Housed := by
  refine ⟨hids ▸ h.nodup,fun id hid => ?_,fun id hid => ?_⟩
  · exact (h.ids_lt id (hids ▸ hid)).trans_le hn
  · rw [hids]
    exact href id hid

/-- A call through a scope that is there. -/
theorem Housed.call (h : s.Housed) {c : BudgetCall} (hc : ∀ id, c.scope = some id → id ∈ s.ids) :
    (s.call c).Housed := by
  refine h.congr rfl le_rfl (fun id hid => ?_)
  rcases mem_referenced.mp hid with hid | ⟨d,hd,hs⟩
  · exact h.homed id (mem_referenced.mpr (.inl hid))
  · rcases List.mem_cons.mp hd with rfl | hd
    · exact hc id hs
    · exact h.homed id (mem_referenced.mpr (.inr ⟨d,hd,hs⟩))

/-- A call may be taken in front of the others. -/
theorem Valid.pick (h : s.Valid limits) {c : BudgetCall} (hc : c ∈ s.calls) :
    ({ s with calls := s.calls.erase c }.call c).Valid limits := by
  have hp : s.calls.Perm (c :: s.calls.erase c) := List.perm_cons_erase hc
  refine ⟨⟨?_,h.balanced.used_le,fun scope hs => ?_⟩,⟨h.housed.nodup,h.housed.ids_lt,fun id hid => ?_⟩,
    ⟨?_,h.counted.sessions_le⟩⟩
  · exact h.balanced.used.trans (congrArg _ (hp.map _).sum_eq)
  · exact (h.balanced.scope_used scope hs).trans (congrArg _ (hp.map _).sum_eq)
  · refine h.housed.homed id ?_
    rcases List.mem_append.mp hid with hid | hid
    · exact List.mem_append_left _ hid
    · exact List.mem_append_right _ ((hp.filterMap _).mem_iff.mpr hid)
  · exact h.counted.sessions.trans (congrArg _ (hp.map _).sum_eq)

section Calls

/-- A charge leaves the list for a call that has its bytes in both counters. -/
theorem Valid.uncharge (h : s.Valid limits) {c : ReceiveCharge} (hc : c ∈ s.charges) {d : BudgetCall}
    (hscope : d.scope = some c.scope) (hopened : d.opened = 0) (htaken : d.taken = c.bytes)
    (hentered : d.entered = c.bytes) :
    ({ s with charges := s.charges.erase c }.call d).Valid limits := by
  have hrest : ({ s with charges := s.charges.erase c }).referenced ⊆ s.referenced := by
    intro id hid
    rcases mem_referenced.mp hid with ⟨e,he,hes⟩ | hid
    · exact mem_referenced.mpr (.inl ⟨e,List.mem_of_mem_erase he,hes⟩)
    · exact mem_referenced.mpr (.inr hid)
  have hhoused : ({ s with charges := s.charges.erase c }).Housed :=
    h.housed.congr rfl le_rfl fun id hid => h.housed.homed id (hrest hid)
  refine ⟨⟨?_,h.balanced.used_le,fun scope hs => ?_⟩,hhoused.call fun id hid => ?_,
    ⟨?_,h.counted.sessions_le⟩⟩
  · have hw := weigh_erase (fun _ => true) hc
    have hu := h.balanced.used
    rw [if_pos rfl] at hw
    simp only [call, takenBy_cons, htaken]
    omega
  · have hw := weigh_erase (· = scope.id) hc
    have hu := h.balanced.scope_used scope hs
    simp only [call, enteredBy_cons, hscope, hentered, Option.some.injEq, decide_eq_true_eq] at hw ⊢
    omega
  · refine h.housed.homed id (mem_referenced.mpr (.inl ⟨c,hc,?_⟩))
    exact Option.some.inj (hscope.symm.trans hid)
  · simpa [call, hopened] using h.counted.sessions

theorem openScope_valid (h : s.Valid limits) (allocationFails : Bool) :
    (s.openScope limits allocationFails).1.Valid limits := by
  unfold openScope
  split
  · exact ⟨⟨h.balanced.used,h.balanced.used_le,h.balanced.scope_used⟩,h.housed.congr rfl le_rfl h.housed.homed,
      ⟨h.counted.sessions,h.counted.sessions_le⟩⟩
  · have hlt := limits.maxSessions_lt
    have hn := h.counted.sessions
    rw [add_eq (by omega)]
    have hhoused : ({ s with sessions := s.sessions + 1 }).Housed :=
      h.housed.congr rfl le_rfl h.housed.homed
    refine ⟨⟨?_,h.balanced.used_le,fun scope hs => ?_⟩,hhoused.call nofun,⟨?_,?_⟩⟩
    · simpa [call, BudgetCall.taken] using h.balanced.used
    · simpa [call, BudgetCall.scope] using h.balanced.scope_used scope hs
    · simp only [call, openedBy_cons, BudgetCall.opened]
      omega
    · change s.sessions + 1 ≤ _
      omega

/-- A scope may change everything but its id and its counter. -/
theorem setScope_valid (h : s.Valid limits) {old : ReceiveScope} (hs : old ∈ s.scopes)
    (new : ReceiveScope) (hid : new.id = old.id) (hused : new.used = old.used) :
    (s.setScope new).Valid limits := by
  refine ⟨⟨h.balanced.used,h.balanced.used_le,fun scope hm => ?_⟩,
    h.housed.congr (setScope_ids new) le_rfl h.housed.homed,⟨?_,h.counted.sessions_le⟩⟩
  · obtain rfl | ⟨hm,-⟩ := mem_setScope new hm
    · rw [hused, hid]
      exact h.balanced.scope_used old hs
    · exact h.balanced.scope_used scope hm
  · rw [setScope_length]
    exact h.counted.sessions

theorem dropScope_valid (h : s.Valid limits) (id : ℕ) : (s.dropScope id).1.Valid limits := by
  unfold dropScope
  cases hf : s.scope? id with
  | none => exact h
  | some scope =>
    dsimp only
    split
    · exact setScope_valid h (scope?_some hf).1 _ rfl rfl
    · exact h

/-- The destructor of a scope finds its session counted. -/
theorem destroyScope_valid (h : s.Valid limits) (id : ℕ) :
    ∃ r, s.destroyScope id = some r ∧ r.1.Valid limits := by
  unfold destroyScope
  cases hf : s.scope? id with
  | none => exact ⟨_,rfl,h⟩
  | some scope =>
    obtain ⟨hs,hid⟩ := scope?_some hf
    dsimp only
    split
    · exact ⟨_,rfl,h⟩
    rename_i hfree
    have hperm := List.perm_cons_erase hs
    have hlen : s.scopes.length = (s.scopes.erase scope).length + 1 := hperm.length_eq
    have hn := h.counted.sessions
    have hle := h.counted.sessions_le
    have hids : s.ids.Perm (scope.id :: (s.scopes.erase scope).map (·.id)) := hperm.map _
    have hnd := List.nodup_cons.mp (hids.nodup_iff.mp h.housed.nodup)
    rw [sub, if_pos (by omega), Option.map_some]
    refine ⟨_,rfl,⟨h.balanced.used,h.balanced.used_le,fun other ho => ?_⟩,
      ⟨hnd.2,fun i hi => ?_,fun i hi => ?_⟩,⟨?_,?_⟩⟩
    · exact h.balanced.scope_used other (List.mem_of_mem_erase ho)
    · exact h.housed.ids_lt i (hids.mem_iff.mpr (List.mem_cons_of_mem _ hi))
    · have hmem := hids.mem_iff.mp (h.housed.homed i hi)
      refine (List.mem_cons.mp hmem).resolve_left fun he => hfree (.inr ?_)
      exact hid ▸ he ▸ hi
    · change s.sessions - 1 = (s.scopes.erase scope).length + openedBy s.calls
      omega
    · change s.sessions - 1 ≤ _
      omega

/-- What the guard of `acquire` sees. -/
theorem Balanced.reserve_eq (h : s.Balanced limits) {id : ℕ} {scope : ReceiveScope}
    (hf : s.scope? id = some scope) (hheld : scope.held = true) (bytes : ℕ) (allocationFails : Bool) :
    s.reserve limits id bytes allocationFails = some
      (if bytes > limits.maxBytes - s.used then (s,.refused)
      else ({ s with used := add s.used bytes, seen := add s.used bytes :: s.seen }.call
        (.raising id bytes (add s.used bytes) allocationFails),.underWay)) := by
  unfold reserve
  rw [hf]
  dsimp only
  rw [if_neg (by simp [hheld]), sub, if_pos h.used_le, Option.map_some]

theorem reserve_valid (h : s.Valid limits) (id bytes : ℕ) (allocationFails : Bool) :
    ∃ r, s.reserve limits id bytes allocationFails = some r ∧ r.1.Valid limits := by
  cases hf : s.scope? id with
  | none =>
    refine ⟨(s,.absent),?_,h⟩
    rw [reserve, hf]
  | some scope =>
    obtain ⟨hs,rfl⟩ := scope?_some hf
    by_cases hheld : scope.held = true
    swap
    · refine ⟨(s,.absent),?_,h⟩
      rw [reserve, hf]
      exact if_pos (by simpa using hheld)
    refine ⟨_,h.balanced.reserve_eq hf hheld bytes allocationFails,?_⟩
    split
    · exact h
    have hle := h.balanced.used_le
    have hlt := limits.maxBytes_lt
    rw [add_eq (by omega)]
    have hhoused : ({ s with used := s.used + bytes, seen := (s.used + bytes) :: s.seen }).Housed :=
      h.housed.congr rfl le_rfl h.housed.homed
    refine ⟨⟨?_,?_,fun other ho => ?_⟩,hhoused.call fun i hi => ?_,⟨?_,h.counted.sessions_le⟩⟩
    · have := h.balanced.used
      simp only [call, takenBy_cons, BudgetCall.taken]
      omega
    · change s.used + bytes ≤ _
      omega
    · simpa [call, BudgetCall.entered] using h.balanced.scope_used other ho
    · obtain rfl := Option.some.inj hi
      exact List.mem_map_of_mem hs
    · simpa [call, BudgetCall.opened] using h.counted.sessions

theorem destroy_valid (h : s.Valid limits) (id : ℕ) : (s.destroy id).1.Valid limits := by
  unfold destroy
  cases hf : s.charge? id with
  | none => exact h
  | some c =>
    exact h.uncharge (charge?_some hf).1 rfl rfl rfl rfl

theorem overflow_valid (h : s.Valid limits) (id bytes : ℕ) (reason : ReceiveOverflowReason) :
    (s.overflow id bytes reason).1.Valid limits := by
  unfold overflow
  cases hf : s.scope? id with
  | none => exact h
  | some scope =>
    have hv := setScope_valid h (scope?_some hf).1 { scope with
      overflows := add scope.overflows 1, overflowBytes := add scope.overflowBytes bytes } rfl rfl
    exact ⟨⟨hv.balanced.used,hv.balanced.used_le,hv.balanced.scope_used⟩,
      hv.housed.congr rfl le_rfl hv.housed.homed,⟨hv.counted.sessions,hv.counted.sessions_le⟩⟩

theorem resetStats_valid (h : s.Valid limits) : s.resetStats.1.Valid limits := by
  refine ⟨⟨?_,h.balanced.used_le,fun scope hs => ?_⟩,h.housed.call nofun,⟨?_,h.counted.sessions_le⟩⟩
  · simpa [resetStats, call, BudgetCall.taken] using h.balanced.used
  · simpa [resetStats, call, BudgetCall.scope] using h.balanced.scope_used scope hs
  · simpa [resetStats, call, BudgetCall.opened] using h.counted.sessions

theorem shrink_valid (h : s.Valid limits) (id bytes : ℕ) :
    ∃ r, s.shrink id bytes = some r ∧ r.1.Valid limits := by
  unfold shrink
  cases hf : s.charge? id with
  | none => exact ⟨_,rfl,h⟩
  | some c =>
    dsimp only
    split
    · exact ⟨_,rfl,h⟩
    rename_i hle
    rw [sub, if_pos (not_lt.mp hle), Option.map_some]
    refine ⟨_,rfl,h.uncharge (charge?_some hf).1 rfl rfl ?_ ?_⟩
    · exact Nat.sub_add_cancel (not_lt.mp hle)
    · exact Nat.sub_add_cancel (not_lt.mp hle)

/-- Charges may be replaced by others of the same scopes. -/
theorem Valid.recharge (h : s.Valid limits) {cs : List ReceiveCharge}
    (hcharges : ∀ p, weigh p cs = weigh p s.charges)
    (hhomed : ∀ c ∈ cs, ∃ d ∈ s.charges, d.scope = c.scope) :
    ({ s with charges := cs } : ReceiveBudget).Valid limits := by
  refine ⟨⟨?_,h.balanced.used_le,fun scope hs => ?_⟩,h.housed.congr rfl le_rfl fun id hid => ?_,
    ⟨h.counted.sessions,h.counted.sessions_le⟩⟩
  · exact h.balanced.used.trans (congrArg (· + takenBy s.calls) (hcharges _).symm)
  · exact (h.balanced.scope_used scope hs).trans
      (congrArg (· + enteredBy s.calls scope.id) (hcharges _).symm)
  · refine h.housed.homed id (mem_referenced.mpr ?_)
    rcases mem_referenced.mp hid with ⟨c,hc,hcs⟩ | hid
    · obtain ⟨d,hd,hds⟩ := hhomed c hc
      exact .inl ⟨d,hd,hds.trans hcs⟩
    · exact .inr hid

theorem merge_valid (h : s.Valid limits) (id other : ℕ) : (s.merge id other).1.Valid limits := by
  unfold merge
  split
  · rename_i c d hc hd
    obtain ⟨hc,hcid⟩ := charge?_some hc
    obtain ⟨hd,hdid⟩ := charge?_some hd
    split
    · exact h
    rename_i hne
    split
    · exact h
    rename_i hscope
    have hscope : c.scope = d.scope := not_not.mp hscope
    have hcd : d ≠ c := by
      rintro rfl
      exact hne (hcid.symm.trans hdid)
    have hsum : c.bytes + d.bytes ≤ s.used := by
      have hw := weigh_erase (fun _ => true) hc
      have hw' := weigh_erase (fun _ => true) ((List.mem_erase_of_ne hcd).mpr hd)
      rw [if_pos rfl] at hw hw'
      have hused := h.balanced.used
      omega
    have hlt := limits.maxBytes_lt
    have hle := h.balanced.used_le
    rw [add_eq (by omega)]
    refine h.recharge (fun p => ?_) ?_
    · have hmem : d ∈ ({ c with bytes := c.bytes + d.bytes } : ReceiveCharge) :: s.charges.erase c :=
        List.mem_cons_of_mem _ ((List.mem_erase_of_ne hcd).mpr hd)
      have h1 := weigh_put p (d := { c with bytes := c.bytes + d.bytes }) hc rfl
      have h2 := weigh_put p (d := { d with bytes := 0 }) hmem rfl
      change weigh p (({ d with bytes := 0 } : ReceiveCharge) ::
        (({ c with bytes := c.bytes + d.bytes } : ReceiveCharge) :: s.charges.erase c).erase d) = _
      have hp : p c.scope = p d.scope := congrArg p hscope
      rw [← hp] at h2
      dsimp only at h1 h2
      split_ifs at h1 h2 <;> omega
    · intro x hx
      rcases List.mem_cons.mp hx with rfl | hx
      · exact ⟨d,hd,rfl⟩
      · rcases List.mem_cons.mp (List.mem_of_mem_erase hx) with rfl | hx
        · exact ⟨c,hc,rfl⟩
        · exact ⟨x,List.mem_of_mem_erase hx,rfl⟩
  · exact h

end Calls

section Accesses
variable {c : BudgetCall}

theorem Valid.scope_of_call (h : (s.call c).Valid limits) {id : ℕ} (hc : c.scope = some id) :
    ∃ scope, s.scope? id = some scope ∧ scope ∈ s.scopes ∧ scope.id = id :=
  h.housed.scope?_of_mem (h.housed.homed id (mem_referenced.mpr (.inr ⟨c,List.mem_cons_self,hc⟩)))

/-- A call goes on without touching a counter of bytes. -/
theorem Valid.recall (h : (s.call c).Valid limits) (d : BudgetCall) (hscope : d.scope = c.scope)
    (htaken : d.taken = c.taken) (hentered : d.entered = c.entered) (hopened : d.opened = c.opened)
    (peak : ℕ) : ({ s with peak := peak }.call d).Valid limits := by
  refine ⟨⟨?_,h.balanced.used_le,fun scope hs => ?_⟩,h.housed.congr rfl le_rfl fun id hid => ?_,
    ⟨?_,h.counted.sessions_le⟩⟩
  · simpa [call, htaken] using h.balanced.used
  · simpa [call, hscope, hentered] using h.balanced.scope_used scope hs
  · refine h.housed.homed id ?_
    simpa [mem_referenced, call, hscope] using hid
  · simpa [call, hopened] using h.counted.sessions

/-- A call goes on and changes its scope's counter by what it has entered there. -/
theorem Valid.recount (h : (s.call c).Valid limits) (d : BudgetCall) {old : ReceiveScope}
    (new : ReceiveScope) (hs : old ∈ s.scopes) (hc : c.scope = some old.id)
    (hscope : d.scope = some old.id) (htaken : d.taken = c.taken) (hopened : d.opened = c.opened)
    (hid : new.id = old.id) (hused : new.used + c.entered = old.used + d.entered) :
    ((s.setScope new).call d).Valid limits := by
  refine ⟨⟨?_,h.balanced.used_le,fun scope hm => ?_⟩,
    h.housed.congr (setScope_ids new) le_rfl fun id hid => ?_,⟨?_,h.counted.sessions_le⟩⟩
  · simpa [call, setScope, htaken] using h.balanced.used
  · obtain rfl | ⟨hm,hne⟩ := mem_setScope new hm
    · have hold := h.balanced.scope_used old hs
      simp only [call, enteredBy_cons, hc, if_true] at hold
      simp only [call, setScope, enteredBy_cons, hscope, hid, if_true]
      omega
    · have hother := h.balanced.scope_used scope hm
      have hnot : some old.id ≠ some scope.id := fun he => hne (hid ▸ (Option.some.inj he).symm)
      simp only [call, enteredBy_cons, hc, if_neg hnot] at hother
      simpa only [call, setScope, enteredBy_cons, hscope, if_neg hnot] using hother
  · refine h.housed.homed id ?_
    simpa [mem_referenced, call, setScope, hscope, hc] using hid
  · simpa [call, setScope, hopened] using h.counted.sessions

/-- The peak, the overflow counters and the values seen are no part of the accounts. -/
theorem Valid.reported (h : s.Valid limits) (peak overflows overflowBytes : ℕ)
    (reasons : ReceiveOverflowReason → ℕ) (seen : List ℕ) :
    ({ s with peak := peak, overflows := overflows, overflowBytes := overflowBytes
              reasons := reasons, seen := seen }).Valid limits :=
  ⟨⟨h.balanced.used,h.balanced.used_le,h.balanced.scope_used⟩,
    h.housed.congr rfl le_rfl h.housed.homed,⟨h.counted.sessions,h.counted.sessions_le⟩⟩

/-- A call that has nothing any more returns. -/
theorem Valid.finish (h : (s.call c).Valid limits) (htaken : c.taken = 0) (hopened : c.opened = 0) :
    s.Valid limits := by
  have hentered : c.entered = 0 := Nat.le_zero.mp (htaken ▸ c.entered_le)
  refine ⟨⟨?_,h.balanced.used_le,fun scope hs => ?_⟩,h.housed.congr rfl le_rfl fun id hid => ?_,
    ⟨?_,h.counted.sessions_le⟩⟩
  · simpa [call, htaken] using h.balanced.used
  · simpa [call, hentered] using h.balanced.scope_used scope hs
  · refine h.housed.homed id (mem_referenced.mpr ?_)
    exact (mem_referenced.mp hid).imp_right fun ⟨d,hd,hs⟩ => ⟨d,List.mem_cons_of_mem _ hd,hs⟩
  · simpa [call, hopened] using h.counted.sessions

/-- What a call has in both counters becomes a charge. -/
theorem Valid.charge (h : (s.call c).Valid limits) (charge : ReceiveCharge)
    (hscope : c.scope = some charge.scope) (htaken : c.taken = charge.bytes)
    (hentered : c.entered = charge.bytes) (hopened : c.opened = 0) {nextId : ℕ} (hn : s.nextId ≤ nextId) :
    ({ s with charges := charge :: s.charges, nextId := nextId }).Valid limits := by
  refine ⟨⟨?_,h.balanced.used_le,fun scope hs => ?_⟩,h.housed.congr rfl hn fun id hid => ?_,
    ⟨?_,h.counted.sessions_le⟩⟩
  · have hu := h.balanced.used
    simp only [call, takenBy_cons, htaken] at hu
    rw [weigh_cons, if_pos rfl]
    dsimp only
    omega
  · have hu := h.balanced.scope_used scope hs
    simp only [call, enteredBy_cons, hscope, hentered, Option.some.injEq] at hu
    simp only [weigh_cons, decide_eq_true_eq]
    omega
  · refine h.housed.homed id (mem_referenced.mpr ?_)
    rcases mem_referenced.mp hid with ⟨e,he,hes⟩ | ⟨d,hd,hs⟩
    · rcases List.mem_cons.mp he with rfl | he
      · exact .inr ⟨c,List.mem_cons_self,hes ▸ hscope⟩
      · exact .inl ⟨e,he,hes⟩
    · exact .inr ⟨d,List.mem_cons_of_mem _ hd,hs⟩
  · simpa [call, hopened] using h.counted.sessions

/-- The budget's counter is lowered by what a release has taken off its scope's. -/
theorem Valid.giveBack {scope bytes : ℕ} {cause : ReleaseCause}
    (h : (s.call (.returning scope bytes cause)).Valid limits) :
    ({ s with used := s.used - bytes, seen := (s.used - bytes) :: s.seen }.call
      (.returning scope 0 cause)).Valid limits := by
  have hu : s.used = weigh (fun _ => true) s.charges + (bytes + cause.kept + takenBy s.calls) :=
    h.balanced.used
  refine ⟨⟨?_,(Nat.sub_le _ _).trans h.balanced.used_le,h.balanced.scope_used⟩,
    h.housed.congr rfl le_rfl h.housed.homed,⟨h.counted.sessions,h.counted.sessions_le⟩⟩
  simp only [call, takenBy_cons, BudgetCall.taken]
  omega

theorem perform_opening {allocationFails : Bool}
    (h : (s.call (.opening allocationFails)).Valid limits) :
    ∃ r, s.perform (.opening allocationFails) = some r ∧ r.1.Valid limits := by
  have hu : s.used = weigh (fun _ => true) s.charges + takenBy s.calls := by
    simpa [call, BudgetCall.taken] using h.balanced.used
  have hscope : ∀ scope ∈ s.scopes,
      scope.used = weigh (· = scope.id) s.charges + enteredBy s.calls scope.id := by
    intro scope hs
    simpa [call, BudgetCall.scope] using h.balanced.scope_used scope hs
  have hn : s.sessions = s.scopes.length + (1 + openedBy s.calls) := h.counted.sessions
  have hle := h.counted.sessions_le
  have href : ∀ id ∈ s.referenced, id ∈ s.ids := by
    intro id hid
    refine h.housed.homed id ?_
    simpa [mem_referenced, call, BudgetCall.scope] using hid
  dsimp only [perform]
  split
  · rw [sub, if_pos (by omega), Option.map_some]
    refine ⟨_,rfl,⟨hu,h.balanced.used_le,hscope⟩,h.housed.congr rfl le_rfl href,⟨?_,?_⟩⟩
    · change s.sessions - 1 = s.scopes.length + openedBy s.calls
      omega
    · exact (Nat.sub_le _ _).trans hle
  · have hfresh : s.nextId ∉ s.ids := fun hm => (h.housed.ids_lt _ hm).false
    have hnone : s.nextId ∉ s.referenced := fun hm => hfresh (href _ hm)
    obtain ⟨hcharges,hcalls⟩ := not_or.mp (mt List.mem_append.mpr hnone)
    refine ⟨_,rfl,⟨hu,h.balanced.used_le,fun scope hs => ?_⟩,
      ⟨List.nodup_cons.mpr ⟨hfresh,h.housed.nodup⟩,fun id hid => ?_,fun id hid => ?_⟩,⟨?_,hle⟩⟩
    · rcases List.mem_cons.mp hs with rfl | hs
      · -- nothing refers to the new scope
        rw [weigh_of_notMem hcharges, enteredBy_of_notMem hcalls]
      · exact hscope scope hs
    · rcases List.mem_cons.mp hid with rfl | hid
      · exact Nat.lt_succ_self _
      · exact (h.housed.ids_lt id hid).trans (Nat.lt_succ_self _)
    · exact List.mem_cons_of_mem _ (href id hid)
    · change s.sessions = s.scopes.length + 1 + openedBy s.calls
      omega

theorem perform_entering {id bytes : ℕ} {allocationFails : Bool}
    (h : (s.call (.entering id bytes allocationFails)).Valid limits) :
    ∃ r, s.perform (.entering id bytes allocationFails) = some r ∧ r.1.Valid limits := by
  obtain ⟨scope,hf,hs,rfl⟩ := h.scope_of_call rfl
  have hu : s.used = weigh (fun _ => true) s.charges + (bytes + takenBy s.calls) := h.balanced.used
  have hused : scope.used = weigh (· = scope.id) s.charges + enteredBy s.calls scope.id := by
    simpa [call, BudgetCall.entered] using h.balanced.scope_used scope hs
  have hle : s.used ≤ limits.maxBytes := h.balanced.used_le
  have hlt := limits.maxBytes_lt
  -- what is in a scope's counter has been taken from the budget's before
  have hw := weigh_le (· = scope.id) s.charges
  have he := enteredBy_le s.calls scope.id
  dsimp only [perform]
  rw [hf, Option.map_some, add_eq (by omega)]
  exact ⟨_,rfl,h.recount (.marking scope.id bytes (scope.used + bytes) allocationFails)
    { scope with used := scope.used + bytes } hs rfl rfl rfl rfl rfl rfl⟩

theorem perform_leaving {id bytes : ℕ} {cause : ReleaseCause}
    (h : (s.call (.leaving id bytes cause)).Valid limits) :
    ∃ r, s.perform (.leaving id bytes cause) = some r ∧ r.1.Valid limits := by
  obtain ⟨scope,hf,hs,rfl⟩ := h.scope_of_call rfl
  have hused := h.balanced.scope_used scope hs
  simp only [call, enteredBy_cons, BudgetCall.scope, BudgetCall.entered, if_true] at hused
  dsimp only [perform]
  rw [hf, Option.bind_some, sub, if_pos (by omega), Option.map_some]
  refine ⟨_,rfl,h.recount (.returning scope.id bytes cause) { scope with used := scope.used - bytes }
    hs rfl rfl rfl rfl rfl ?_⟩
  simp only [BudgetCall.entered]
  omega

theorem perform_making {scope bytes : ℕ} {allocationFails : Bool}
    (h : (s.call (.making scope bytes allocationFails)).Valid limits) :
    ∃ r, s.perform (.making scope bytes allocationFails) = some r ∧ r.1.Valid limits := by
  dsimp only [perform]
  split
  · exact ⟨_,rfl,h.recall (.leaving scope bytes .failedReserve) rfl rfl rfl rfl s.peak⟩
  · exact ⟨_,rfl,h.charge ⟨s.nextId,scope,bytes⟩ rfl rfl rfl rfl (Nat.le_succ _)⟩

theorem perform_returning {scope bytes : ℕ} {cause : ReleaseCause}
    (h : (s.call (.returning scope bytes cause)).Valid limits) :
    ∃ r, s.perform (.returning scope bytes cause) = some r ∧ r.1.Valid limits := by
  have hu : s.used = weigh (fun _ => true) s.charges + (bytes + cause.kept + takenBy s.calls) :=
    h.balanced.used
  have hv := h.giveBack
  dsimp only [perform]
  rw [sub, if_pos (by omega), Option.map_some]
  cases cause with
  | failedReserve => exact ⟨_,rfl,hv.finish rfl rfl⟩
  | destroyed => exact ⟨_,rfl,hv.finish rfl rfl⟩
  | shrunk charge kept =>
    exact ⟨_,rfl,hv.charge ⟨charge,scope,kept⟩ rfl (Nat.zero_add _) rfl rfl le_rfl⟩

theorem perform_valid (h : (s.call c).Valid limits) : ∃ r, s.perform c = some r ∧ r.1.Valid limits := by
  cases c with
  | opening allocationFails => exact perform_opening h
  | raising scope bytes value allocationFails =>
    exact ⟨_,rfl,h.recall (.entering scope bytes allocationFails) rfl rfl rfl rfl _⟩
  | entering scope bytes allocationFails => exact perform_entering h
  | marking id bytes value allocationFails =>
    obtain ⟨scope,hf,hs,rfl⟩ := h.scope_of_call rfl
    dsimp only [perform]
    rw [hf, Option.map_some]
    exact ⟨_,rfl,h.recount (.making scope.id bytes allocationFails)
      { scope with peak := max scope.peak value } hs rfl rfl rfl rfl rfl rfl⟩
  | making scope bytes allocationFails => exact perform_making h
  | leaving scope bytes cause => exact perform_leaving h
  | returning scope bytes cause => exact perform_returning h
  | storing loaded => exact ⟨_,rfl,(h.finish rfl rfl).reported _ _ _ _ _⟩

theorem advance_valid (h : s.Valid limits) (c : BudgetCall) :
    ∃ r, s.advance c = some r ∧ r.1.Valid limits := by
  unfold advance
  split
  · exact perform_valid (h.pick ‹_›)
  · exact ⟨_,rfl,h⟩

theorem step_valid (h : s.Valid limits) (op : BudgetOp) :
    ∃ r, s.step limits op = some r ∧ r.1.Valid limits := by
  cases op with
  | openScope allocationFails => exact ⟨_,rfl,openScope_valid h allocationFails⟩
  | dropScope scope => exact ⟨_,rfl,dropScope_valid h scope⟩
  | destroyScope scope => exact destroyScope_valid h scope
  | reserve scope bytes allocationFails => exact reserve_valid h scope bytes allocationFails
  | destroy charge => exact ⟨_,rfl,destroy_valid h charge⟩
  | merge charge other => exact ⟨_,rfl,merge_valid h charge other⟩
  | shrink charge bytes => exact shrink_valid h charge bytes
  | overflow scope bytes reason => exact ⟨_,rfl,overflow_valid h scope bytes reason⟩
  | resetStats => exact ⟨_,rfl,resetStats_valid h⟩
  | advance call => exact advance_valid h call

theorem valid_new : new.Valid limits :=
  ⟨⟨rfl,Nat.zero_le _,nofun⟩,⟨.nil,nofun,nofun⟩,⟨rfl,Nat.zero_le _⟩⟩

end Accesses

section Peak
variable {c : BudgetCall}

/-- The value is in the peak, or a `reserve` under way is still to put it there. -/
def Covers (s : ReceiveBudget) (v : ℕ) : Prop := v ≤ s.peak ∨ ∃ c ∈ s.calls, v ≤ c.raiseTo

structure Marked (s : ReceiveBudget) : Prop where
  current : s.used ∈ s.seen
  covers : ∀ v ∈ s.seen, s.Covers v

theorem Marked.keep (h : s.Marked) (hused : t.used = s.used) (hseen : t.seen = s.seen)
    (hpeak : s.peak ≤ t.peak) (hcalls : s.calls ⊆ t.calls) : t.Marked := by
  refine ⟨?_,fun v hv => ?_⟩
  · rw [hused, hseen]
    exact h.current
  · rw [hseen] at hv
    obtain hle | ⟨c,hc,hle⟩ := h.covers v hv
    · exact .inl (hle.trans hpeak)
    · exact .inr ⟨c,hcalls hc,hle⟩

/-- A call that raises nothing may go. -/
theorem Marked.of_call (h : (s.call c).Marked) (hc : c.raiseTo = 0) : s.Marked := by
  refine ⟨h.current,fun v hv => ?_⟩
  obtain hle | ⟨d,hd,hle⟩ := h.covers v hv
  · exact .inl hle
  · rcases List.mem_cons.mp hd with rfl | hd
    · exact .inl (hle.trans (hc.le.trans (Nat.zero_le _)))
    · exact .inr ⟨d,hd,hle⟩

theorem Marked.pick (h : s.Marked) (hc : c ∈ s.calls) :
    ({ s with calls := s.calls.erase c }.call c).Marked :=
  h.keep rfl rfl le_rfl fun _ hd => (List.perm_cons_erase hc).mem_iff.mp hd

/-- Bytes given back leave a value that is below one seen before. -/
theorem Marked.lower (h : s.Marked) {used : ℕ} (hused : used ≤ s.used) :
    ({ s with used := used, seen := used :: s.seen }).Marked := by
  refine ⟨List.mem_cons_self,fun v hv => ?_⟩
  rcases List.mem_cons.mp hv with rfl | hv
  · obtain hle | ⟨c,hc,hle⟩ := h.covers s.used h.current
    · exact .inl (hused.trans hle)
    · exact .inr ⟨c,hc,hused.trans hle⟩
  · exact h.covers v hv

/-- A store of `reset_stats` loses nothing: `used_` is not above the value loaded, or a
`reserve` under way is still to raise the peak that far. -/
def Harmless (s : ReceiveBudget) (op : BudgetOp) : Prop :=
  ∀ loaded ∈ op.stored, .storing loaded ∈ s.calls →
    s.used ≤ loaded ∨ ∃ c ∈ s.calls, s.used ≤ c.raiseTo

instance (s : ReceiveBudget) (op : BudgetOp) : Decidable (s.Harmless op) :=
  inferInstanceAs (Decidable (∀ loaded ∈ op.stored, _))

theorem perform_marked (h : (s.call c).Marked)
    (hstore : ∀ loaded, c = .storing loaded → s.used ≤ loaded ∨ ∃ d ∈ s.calls, s.used ≤ d.raiseTo)
    {r : ReceiveBudget × BudgetOutcome} (hr : s.perform c = some r) : r.1.Marked := by
  cases c with
  | opening allocationFails =>
    have hm := h.of_call rfl
    dsimp only [perform] at hr
    split at hr
    · obtain ⟨n,-,rfl⟩ := Option.map_eq_some_iff.mp hr
      exact hm.keep rfl rfl le_rfl (List.Subset.refl _)
    · cases hr
      exact hm.keep rfl rfl le_rfl (List.Subset.refl _)
  | raising scope bytes value allocationFails =>
    cases hr
    refine ⟨h.current,fun v hv => ?_⟩
    obtain hle | ⟨d,hd,hle⟩ := h.covers v hv
    · exact .inl (hle.trans (le_max_left _ _))
    · rcases List.mem_cons.mp hd with rfl | hd
      · exact .inl (hle.trans (le_max_right _ _))
      · exact .inr ⟨d,List.mem_cons_of_mem _ hd,hle⟩
  | entering id bytes allocationFails =>
    obtain ⟨scope,-,rfl⟩ := Option.map_eq_some_iff.mp hr
    exact (h.of_call rfl).keep rfl rfl le_rfl (List.subset_cons_self _ _)
  | marking id bytes value allocationFails =>
    obtain ⟨scope,-,rfl⟩ := Option.map_eq_some_iff.mp hr
    exact (h.of_call rfl).keep rfl rfl le_rfl (List.subset_cons_self _ _)
  | making scope bytes allocationFails =>
    have hm := h.of_call rfl
    dsimp only [perform] at hr
    split at hr
    · cases hr
      exact hm.keep rfl rfl le_rfl (List.subset_cons_self _ _)
    · cases hr
      exact hm.keep rfl rfl le_rfl (List.Subset.refl _)
  | leaving id bytes cause =>
    obtain ⟨scope,-,hr⟩ := Option.bind_eq_some_iff.mp hr
    obtain ⟨used,-,rfl⟩ := Option.map_eq_some_iff.mp hr
    exact (h.of_call rfl).keep rfl rfl le_rfl (List.subset_cons_self _ _)
  | returning scope bytes cause =>
    obtain ⟨used,hused,rfl⟩ := Option.map_eq_some_iff.mp hr
    have hle : used ≤ s.used := by
      unfold sub at hused
      split at hused
      · cases hused
        exact Nat.sub_le _ _
      · cases hused
    have hm := (h.of_call rfl).lower hle
    cases cause with
    | failedReserve => exact hm
    | destroyed => exact hm
    | shrunk charge kept => exact hm.keep rfl rfl le_rfl (List.Subset.refl _)
  | storing loaded =>
    cases hr
    refine ⟨List.mem_singleton_self _,fun v hv => ?_⟩
    obtain rfl := List.mem_singleton.mp hv
    exact hstore loaded rfl

/-- The value that a `reserve` leaves in `used_` is still to be raised. -/
theorem reserve_marked (h : s.Marked) {id bytes : ℕ} {allocationFails : Bool}
    {r : ReceiveBudget × BudgetOutcome} (hr : s.reserve limits id bytes allocationFails = some r) : r.1.Marked := by
  unfold reserve at hr
  split at hr
  · cases hr
    exact h
  split at hr
  · cases hr
    exact h
  obtain ⟨room,-,rfl⟩ := Option.map_eq_some_iff.mp hr
  split
  · exact h
  · refine ⟨List.mem_cons_self,fun v hv => ?_⟩
    rcases List.mem_cons.mp hv with rfl | hv
    · exact .inr ⟨_,List.mem_cons_self,le_rfl⟩
    · exact (h.covers v hv).imp_right fun ⟨c,hc,hle⟩ => ⟨c,List.mem_cons_of_mem _ hc,hle⟩

theorem merge_marked (h : s.Marked) (id other : ℕ) : (s.merge id other).1.Marked := by
  unfold merge
  split
  · split
    · exact h
    · split
      · exact h
      · exact h.keep rfl rfl le_rfl (List.Subset.refl _)
  · exact h

theorem shrink_marked (h : s.Marked) {id bytes : ℕ} {r : ReceiveBudget × BudgetOutcome}
    (hr : s.shrink id bytes = some r) : r.1.Marked := by
  unfold shrink at hr
  split at hr
  · cases hr
    exact h
  split at hr
  · cases hr
    exact h
  obtain ⟨freed,-,rfl⟩ := Option.map_eq_some_iff.mp hr
  exact h.keep rfl rfl le_rfl (List.subset_cons_self _ _)

theorem destroyScope_marked (h : s.Marked) {id : ℕ} {r : ReceiveBudget × BudgetOutcome}
    (hr : s.destroyScope id = some r) : r.1.Marked := by
  unfold destroyScope at hr
  split at hr
  · cases hr
    exact h
  split at hr
  · cases hr
    exact h
  obtain ⟨n,-,rfl⟩ := Option.map_eq_some_iff.mp hr
  exact h.keep rfl rfl le_rfl (List.Subset.refl _)

theorem advance_marked (h : s.Marked) (hop : s.Harmless (.advance c))
    {r : ReceiveBudget × BudgetOutcome} (hr : s.advance c = some r) : r.1.Marked := by
  unfold advance at hr
  split at hr
  · rename_i hc
    refine perform_marked (h.pick hc) (fun loaded he => ?_) hr
    subst he
    -- the store itself raises nothing, so the `reserve` that does is another call
    obtain hle | ⟨d,hd,hle⟩ := hop loaded rfl hc
    · exact .inl hle
    · by_cases hne : d = .storing loaded
      · subst hne
        exact .inl (hle.trans (Nat.zero_le _))
      · exact .inr ⟨d,(List.mem_erase_of_ne hne).mpr hd,hle⟩
  · cases hr
    exact h

theorem step_marked (h : s.Marked) {op : BudgetOp} (hop : s.Harmless op)
    {r : ReceiveBudget × BudgetOutcome} (hr : s.step limits op = some r) : r.1.Marked := by
  cases op with
  | openScope allocationFails =>
    cases hr
    unfold openScope
    split
    · exact h.keep rfl rfl le_rfl (List.Subset.refl _)
    · exact h.keep rfl rfl le_rfl (List.subset_cons_self _ _)
  | dropScope id =>
    cases hr
    unfold dropScope
    split
    · exact h
    · split
      · exact h.keep rfl rfl le_rfl (List.Subset.refl _)
      · exact h
  | destroyScope id => exact destroyScope_marked h hr
  | reserve id bytes allocationFails => exact reserve_marked h hr
  | destroy id =>
    cases hr
    unfold destroy
    split
    · exact h
    · exact h.keep rfl rfl le_rfl (List.subset_cons_self _ _)
  | merge id other =>
    cases hr
    exact merge_marked h id other
  | shrink id bytes => exact shrink_marked h hr
  | overflow id bytes reason =>
    cases hr
    unfold overflow
    split
    · exact h
    · exact h.keep rfl rfl le_rfl (List.Subset.refl _)
  | resetStats =>
    cases hr
    exact h.keep rfl rfl le_rfl (List.subset_cons_self _ _)
  | advance c => exact advance_marked h hop hr

theorem marked_new : new.Marked :=
  ⟨List.mem_singleton_self _,fun _ hv => .inl (List.mem_singleton.mp hv).le⟩

end Peak

/-- Every store of a `reset_stats` in the run is harmless. -/
def Undisturbed (limits : BudgetLimits) : ReceiveBudget → List BudgetOp → Prop
  | _, [] => True
  | s, op :: ops => s.Harmless op ∧ ∀ r ∈ s.step limits op, Undisturbed limits r.1 ops

instance decidableUndisturbed (limits : BudgetLimits) :
    ∀ s ops, Decidable (Undisturbed limits s ops)
  | _, [] => inferInstanceAs (Decidable True)
  | s, op :: ops =>
    have := fun r : ReceiveBudget × BudgetOutcome => decidableUndisturbed limits r.1 ops
    inferInstanceAs (Decidable (s.Harmless op ∧ ∀ r ∈ s.step limits op, Undisturbed limits r.1 ops))

/-- The counters are the sums over the live charges and scopes and what the calls under
way have taken, within their limits; with no call under way they are the sums alone. -/
structure Exact (limits : BudgetLimits) (s : ReceiveBudget) : Prop where
  used : s.used = (s.charges.map (·.bytes)).sum + takenBy s.calls
  used_le : s.used ≤ limits.maxBytes
  scope_used : ∀ scope ∈ s.scopes, scope.used = s.charged scope.id + enteredBy s.calls scope.id
  sessions : s.sessions = s.scopes.length + openedBy s.calls
  sessions_le : s.sessions ≤ limits.maxSessions
  refuses : ∀ scope ∈ s.scopes, scope.held = true → ∀ bytes allocationFails r,
    s.reserve limits scope.id bytes allocationFails = some r →
    (r.2 = .refused ↔ bytes > limits.maxBytes - s.used)

/-- The reported peak covers every value since the last reset, but for those that a
`reserve` under way is still to put there. -/
def PeakCovers (s : ReceiveBudget) : Prop :=
  ∀ v ∈ s.seen, v ≤ s.peakReserved ∨ ∃ c ∈ s.calls, v ≤ c.raiseTo

theorem Valid.refuses (h : s.Valid limits) {scope : ReceiveScope} (hs : scope ∈ s.scopes)
    (hheld : scope.held = true) (bytes : ℕ) (allocationFails : Bool) {r : ReceiveBudget × BudgetOutcome}
    (hr : s.reserve limits scope.id bytes allocationFails = some r) :
    r.2 = .refused ↔ bytes > limits.maxBytes - s.used := by
  rw [h.balanced.reserve_eq (h.housed.scope?_eq hs) hheld] at hr
  cases hr
  split
  · exact iff_of_true rfl ‹_›
  · exact iff_of_false nofun ‹_›

theorem Valid.exact (h : s.Valid limits) : s.Exact limits where
  used := by
    rw [h.balanced.used]
    rfl
  used_le := h.balanced.used_le
  scope_used scope hs := by
    rw [h.balanced.scope_used scope hs]
    simp only [weigh, charged, decide_eq_true_eq]
  sessions := h.counted.sessions
  sessions_le := h.counted.sessions_le
  refuses _ hs hheld bytes allocationFails _ hr := h.refuses hs hheld bytes allocationFails hr

theorem Marked.peakCovers (h : s.Marked) : s.PeakCovers :=
  fun v hv => (h.covers v hv).imp_left fun hle => hle.trans (le_max_right _ _)

theorem run_valid (h : s.Valid limits) (ops : List BudgetOp) :
    ∃ t, s.run limits ops = some t ∧ t.Valid limits ∧
      (s.Marked → Undisturbed limits s ops → t.Marked) := by
  induction ops generalizing s with
  | nil => exact ⟨s,rfl,h,fun hm _ => hm⟩
  | cons op ops ih =>
    obtain ⟨r,hr,hv⟩ := step_valid h op
    obtain ⟨t,ht,htv,htm⟩ := ih hv
    refine ⟨t,?_,htv,fun hm hu => htm (step_marked hm hu.1 hr) (hu.2 r hr)⟩
    change ((s.step limits op).map Prod.fst).bind (fun u => u.run limits ops) = some t
    rw [hr]
    exact ht

/-- Receive memory is accounted exactly in every state of every run, and no subtraction
wraps; the peak covers what it should when no store of `reset_stats` loses a value. -/
theorem run_exact (limits : BudgetLimits) (ops : List BudgetOp) :
    ∃ s, new.run limits ops = some s ∧ s.Exact limits ∧
      (Undisturbed limits new ops → s.PeakCovers) := by
  obtain ⟨s,hs,hv,hm⟩ := run_valid valid_new ops
  exact ⟨s,hs,hv.exact,fun hu => (hm marked_new hu).peakCovers⟩

section Sample

def smallBudget : BudgetLimits where
  toReceiveLimits := ⟨64,16,2,by simp,by simp,by simp⟩
  maxBytes_lt := by decide
  maxSessions_lt := by decide

def reserveTen : List BudgetOp :=
  [.reserve 0 10 false,.advance (.raising 0 10 10 false),.advance (.entering 0 10 false),
    .advance (.marking 0 10 10 false),.advance (.making 0 10 false)]

def destroyTen : List BudgetOp :=
  [.destroy 1,.advance (.leaving 0 10 .destroyed),.advance (.returning 0 10 .destroyed)]

/-- A `reset_stats` before the bytes are taken leaves their peak to be reported. -/
theorem run_exact_reset_before :
    ∃ s, new.run smallBudget ([.openScope false,.advance (.opening false),.resetStats,
        .advance (.storing 0)] ++ reserveTen ++ destroyTen) = some s ∧ s.PeakCovers := by
  obtain ⟨s,hs,-,hp⟩ := run_exact smallBudget ([.openScope false,.advance (.opening false),.resetStats,
    .advance (.storing 0)] ++ reserveTen ++ destroyTen)
  exact ⟨s,hs,hp (by decide)⟩

/-- A `reserve` that ends between the load and the store of `reset_stats`: the ten bytes
were in use after the store, and when they are gone the reported peak is zero. -/
theorem reset_loses_peak :
    ¬∀ (limits : BudgetLimits) (ops : List BudgetOp), ∃ s, new.run limits ops = some s ∧
      s.Exact limits ∧ (s.calls = [] → ∀ v ∈ s.seen, v ≤ s.peakReserved) := by
  intro h
  obtain ⟨s,hs,-,hp⟩ := h smallBudget ([.openScope false,.advance (.opening false),.resetStats] ++
    reserveTen ++ [.advance (.storing 0)] ++ destroyTen)
  have hrun : (new.run smallBudget ([.openScope false,.advance (.opening false),.resetStats] ++
      reserveTen ++ [.advance (.storing 0)] ++ destroyTen)).map
      (fun s => (s.calls,s.seen,s.peakReserved)) = some ([],[0,10],0) := by decide
  rw [hs] at hrun
  simp only [Option.map_some, Option.some.injEq, Prod.mk.injEq] at hrun
  obtain ⟨hcalls,hseen,hpeak⟩ := hrun
  have hten := hp hcalls 10 (by simp [hseen])
  rw [hpeak] at hten
  cases hten

end Sample

end ReceiveBudget
end Wirestead.Wrapper
