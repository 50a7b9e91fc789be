import Wirestead.Sizes.Checked
import Wirestead.Wrapper.BoundedReceive

/-! # The receive budget

One budget, its scopes and their charges. Each access to a counter is a step of its own,
and a call under way is recorded by the access it makes next. A compare-exchange loop is
the step of the turn that ends it. The overflow counters are only added to, cleared and
reported, so they are written with the access before. `none` stands for a subtraction
that wrapped or a dangling scope.
-/
namespace Wirestead.Wrapper
open Sizes

/-- Limits that fit their words. -/
structure BudgetLimits extends ReceiveLimits where
  maxBytes_lt : maxBytes < modulus
  maxSessions_lt : maxSessions < modulus

/-- `held` says whether a handle from `open_scope` is left. -/
structure ReceiveScope where
  id : ℕ
  held : Bool
  used : ℕ
  peak : ℕ
  overflows : ℕ
  overflowBytes : ℕ
  deriving DecidableEq, Repr

structure ReceiveCharge where
  id : ℕ
  scope : ℕ
  bytes : ℕ
  deriving DecidableEq, Repr

/-- What gives bytes back: a `reserve` that could not make its charge, the destructor of
a charge, or `shrink`, after which the charge has the bytes `kept`. -/
inductive ReleaseCause
  | failedReserve
  | destroyed
  | shrunk (charge kept : ℕ)
  deriving DecidableEq, Repr

inductive BudgetCall
  | opening (allocationFails : Bool)
  | raising (scope bytes value : ℕ) (allocationFails : Bool)
  | entering (scope bytes : ℕ) (allocationFails : Bool)
  | marking (scope bytes value : ℕ) (allocationFails : Bool)
  | making (scope bytes : ℕ) (allocationFails : Bool)
  | leaving (scope bytes : ℕ) (cause : ReleaseCause)
  | returning (scope bytes : ℕ) (cause : ReleaseCause)
  | storing (loaded : ℕ)
  deriving DecidableEq, Repr

/-- The scope that a call refers to and so keeps. -/
def BudgetCall.scope : BudgetCall → Option ℕ
  | .raising scope _ _ _ | .entering scope _ _ | .marking scope _ _ _ | .making scope _ _
  | .leaving scope _ _ | .returning scope _ _ => some scope
  | .opening _ | .storing _ => none

/-- The budget with the live scopes and charges and the calls under way. `seen` are the
values that `used_` has taken since the last `reset_stats` stored the peak. -/
structure ReceiveBudget where
  used : ℕ
  peak : ℕ
  sessions : ℕ
  overflows : ℕ
  overflowBytes : ℕ
  reasons : ReceiveOverflowReason → ℕ
  scopes : List ReceiveScope
  charges : List ReceiveCharge
  calls : List BudgetCall
  nextId : ℕ
  seen : List ℕ

inductive BudgetOutcome
  | underWay
  | done
  | refused
  | threw
  | absent
  deriving DecidableEq, Repr

/-- The calls, and the next access of one that is under way. -/
inductive BudgetOp
  | openScope (allocationFails : Bool)
  | dropScope (scope : ℕ)
  | destroyScope (scope : ℕ)
  | reserve (scope bytes : ℕ) (allocationFails : Bool)
  | destroy (charge : ℕ)
  | merge (charge other : ℕ)
  | shrink (charge bytes : ℕ)
  | overflow (scope bytes : ℕ) (reason : ReceiveOverflowReason)
  | resetStats
  | advance (call : BudgetCall)
  deriving DecidableEq, Repr

namespace ReceiveBudget

def new : ReceiveBudget := ⟨0,0,0,0,0,fun _ => 0,[],[],[],0,[0]⟩

/-- The peak that `stats` reports. -/
def peakReserved (s : ReceiveBudget) : ℕ := max s.used s.peak

def scope? (s : ReceiveBudget) (id : ℕ) : Option ReceiveScope := s.scopes.find? (·.id = id)

def charge? (s : ReceiveBudget) (id : ℕ) : Option ReceiveCharge := s.charges.find? (·.id = id)

def setScope (s : ReceiveBudget) (new : ReceiveScope) : ReceiveBudget :=
  { s with scopes := s.scopes.map fun scope => if scope.id = new.id then new else scope }

def putCharge (s : ReceiveBudget) (old new : ReceiveCharge) : ReceiveBudget :=
  { s with charges := new :: s.charges.erase old }

def call (s : ReceiveBudget) (c : BudgetCall) : ReceiveBudget := { s with calls := c :: s.calls }

/-- The scopes that charges and calls keep. -/
def referenced (s : ReceiveBudget) : List ℕ :=
  s.charges.map (·.scope) ++ s.calls.filterMap BudgetCall.scope

def recordOverflow (s : ReceiveBudget) (reason : ReceiveOverflowReason) (bytes : ℕ) : ReceiveBudget :=
  { s with overflows := add s.overflows 1
           overflowBytes := add s.overflowBytes bytes
           reasons := Function.update s.reasons reason (add (s.reasons reason) 1) }

/-- The compare-exchange on `sessions_`. -/
def openScope (limits : BudgetLimits) (s : ReceiveBudget) (allocationFails : Bool) :
    ReceiveBudget × BudgetOutcome :=
  if s.sessions ≥ limits.maxSessions then (s.recordOverflow .sessionLimit 0,.refused)
  else ({ s with sessions := add s.sessions 1 }.call (.opening allocationFails),.underWay)

/-- The handle is given up. -/
def dropScope (s : ReceiveBudget) (id : ℕ) : ReceiveBudget × BudgetOutcome :=
  match s.scope? id with
  | none => (s,.absent)
  | some scope =>
    if scope.held then (s.setScope { scope with held := false },.done) else (s,.absent)

/-- The destructor of a scope that nothing refers to any more. -/
def destroyScope (s : ReceiveBudget) (id : ℕ) : Option (ReceiveBudget × BudgetOutcome) :=
  match s.scope? id with
  | none => some (s,.absent)
  | some scope =>
    if scope.held ∨ id ∈ s.referenced then some (s,.absent)
    else (sub s.sessions 1).map fun sessions =>
      ({ s with sessions := sessions, scopes := s.scopes.erase scope },.done)

/-- The compare-exchange of `acquire` takes the bytes. -/
def reserve (limits : BudgetLimits) (s : ReceiveBudget) (id bytes : ℕ) (allocationFails : Bool) :
    Option (ReceiveBudget × BudgetOutcome) :=
  match s.scope? id with
  | none => some (s,.absent)
  | some scope =>
    if scope.held = false then some (s,.absent)
    else
      (sub limits.maxBytes s.used).map fun room =>
        if bytes > room then (s,.refused)
        else
          let used := add s.used bytes
          ({ s with used := used, seen := used :: s.seen }.call
            (.raising id bytes used allocationFails),.underWay)

def destroy (s : ReceiveBudget) (id : ℕ) : ReceiveBudget × BudgetOutcome :=
  match s.charge? id with
  | none => (s,.absent)
  | some c => ({ s with charges := s.charges.erase c }.call (.leaving c.scope c.bytes .destroyed),.underWay)

def merge (s : ReceiveBudget) (id other : ℕ) : ReceiveBudget × BudgetOutcome :=
  match s.charge? id, s.charge? other with
  | some c, some d =>
    if id = other then (s,.done)
    else if c.scope ≠ d.scope then (s,.threw)
    else
      ((s.putCharge c { c with bytes := add c.bytes d.bytes }).putCharge d { d with bytes := 0 },.done)
  | _, _ => (s,.absent)

/-- The charge is in use by the call until the bytes are given back. -/
def shrink (s : ReceiveBudget) (id bytes : ℕ) : Option (ReceiveBudget × BudgetOutcome) :=
  match s.charge? id with
  | none => some (s,.absent)
  | some c =>
    if bytes > c.bytes then some (s,.threw)
    else
      (sub c.bytes bytes).map fun freed =>
        ({ s with charges := s.charges.erase c }.call
          (.leaving c.scope freed (.shrunk c.id bytes)),.underWay)

def overflow (s : ReceiveBudget) (id bytes : ℕ) (reason : ReceiveOverflowReason) :
    ReceiveBudget × BudgetOutcome :=
  match s.scope? id with
  | none => (s,.absent)
  | some scope =>
    let counted := { scope with overflows := add scope.overflows 1
                                overflowBytes := add scope.overflowBytes bytes }
    ((s.setScope counted).recordOverflow reason bytes,.done)

/-- `reset_stats` loads `used_`; the peak is stored later. -/
def resetStats (s : ReceiveBudget) : ReceiveBudget × BudgetOutcome :=
  (s.call (.storing s.used),.underWay)

/-- The next access of a call that has been taken from the calls under way. -/
def perform (s : ReceiveBudget) : BudgetCall → Option (ReceiveBudget × BudgetOutcome)
  | .opening allocationFails =>
    if allocationFails then (sub s.sessions 1).map fun sessions => ({ s with sessions := sessions },.threw)
    else
      some ({ s with scopes := ⟨s.nextId,true,0,0,0,0⟩ :: s.scopes, nextId := s.nextId + 1 },.done)
  | .raising scope bytes value allocationFails =>
    some ({ s with peak := max s.peak value }.call (.entering scope bytes allocationFails),.underWay)
  | .entering id bytes allocationFails =>
    (s.scope? id).map fun scope =>
      let used := add scope.used bytes
      ((s.setScope { scope with used := used }).call (.marking id bytes used allocationFails),.underWay)
  | .marking id bytes value allocationFails =>
    (s.scope? id).map fun scope =>
      ((s.setScope { scope with peak := max scope.peak value }).call
        (.making id bytes allocationFails),.underWay)
  | .making scope bytes allocationFails =>
    if allocationFails then some (s.call (.leaving scope bytes .failedReserve),.underWay)
    else some ({ s with charges := ⟨s.nextId,scope,bytes⟩ :: s.charges, nextId := s.nextId + 1 },.done)
  | .leaving id bytes cause =>
    (s.scope? id).bind fun scope =>
      (sub scope.used bytes).map fun used =>
        ((s.setScope { scope with used := used }).call (.returning id bytes cause),.underWay)
  | .returning scope bytes cause =>
    (sub s.used bytes).map fun used =>
      let s := { s with used := used, seen := used :: s.seen }
      match cause with
      | .failedReserve => (s,.threw)
      | .destroyed => (s,.done)
      | .shrunk charge kept => ({ s with charges := ⟨charge,scope,kept⟩ :: s.charges },.done)
  | .storing loaded =>
    some ({ s with peak := loaded, overflows := 0, overflowBytes := 0, reasons := fun _ => 0
                   seen := [s.used] },.done)

def advance (s : ReceiveBudget) (c : BudgetCall) : Option (ReceiveBudget × BudgetOutcome) :=
  if c ∈ s.calls then { s with calls := s.calls.erase c }.perform c else some (s,.absent)

def step (limits : BudgetLimits) (s : ReceiveBudget) : BudgetOp → Option (ReceiveBudget × BudgetOutcome)
  | .openScope allocationFails => some (s.openScope limits allocationFails)
  | .dropScope scope => some (s.dropScope scope)
  | .destroyScope scope => s.destroyScope scope
  | .reserve scope bytes allocationFails => s.reserve limits scope bytes allocationFails
  | .destroy charge => some (s.destroy charge)
  | .merge charge other => some (s.merge charge other)
  | .shrink charge bytes => s.shrink charge bytes
  | .overflow scope bytes reason => some (s.overflow scope bytes reason)
  | .resetStats => some s.resetStats
  | .advance call => s.advance call

def run (limits : BudgetLimits) (s : ReceiveBudget) (ops : List BudgetOp) : Option ReceiveBudget :=
  ops.foldlM (fun s op => (s.step limits op).map Prod.fst) s

/-- The bytes of the live charges of a scope. -/
def charged (s : ReceiveBudget) (id : ℕ) : ℕ :=
  (s.charges.map (fun c => if c.scope = id then c.bytes else 0)).sum

end ReceiveBudget
end Wirestead.Wrapper
