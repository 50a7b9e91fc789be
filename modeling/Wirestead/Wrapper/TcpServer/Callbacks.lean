import Wirestead.Wrapper.SessionBatch

/-! # The callbacks of a session

The handlers of one session run on its strand, and only they touch its batch: what a
handler does to the batch is done when it begins, and its callbacks follow one at a
time. Some of them ask the gate again, which a stop from any thread may have closed by
then. Sessions do not touch each other.
-/
namespace Wirestead.Wrapper.TcpServer

/-- The user callbacks that name a session. A receive callback gets one item or a
batch. -/
inductive Callback (α : Type*)
  | connect
  | receive (call : BatchCall α)
  | disconnect

def Callback.call? {α : Type*} : Callback α → Option (BatchCall α)
  | .receive call => some call
  | _ => none

/-- A callback that a handler will make, and whether it asks the gate before. -/
structure Due (α : Type*) where
  guarded : Bool
  callback : Callback α

/-- What the connect handler meets. -/
inductive SetUp
  | noTarget
  | refused (reaches : Bool)
  | throws
  | ready (framer : Bool)
  deriving DecidableEq, Repr

/-- How the receive of a chunk ends: the raw item or a message may not fit any more. -/
inductive ReceiveEnd
  | ok
  | rawOverflow
  | messageOverflow
  deriving DecidableEq, Repr

/-- A chunk, the messages that its framer hands over, and whether `fail_receive` finds the
session. -/
structure Chunk (α : Type*) where
  raw : α
  messages : List α
  outcome : ReceiveEnd
  reaches : Bool

/-- A session as the wrapper knows it: its entries in `batches_` and `framers_`, the
callbacks of the handler that runs, and what the transport has done. -/
structure View (α : Type*) where
  notified : Bool
  closed : Bool
  batch : Option (SessionBatch α)
  framer : Bool
  todo : List (Due α)

namespace View
variable {α : Type*} (v : View α)

def init : View α := ⟨false,false,none,false,[]⟩

/-- The handler of `on_multi_connect`. A session without a scope is failed at once. -/
def connect (gateOpen : Bool) (setUp : SetUp) : View α :=
  if v.notified ∨ v.closed then v
  else
    let v : View α := { v with notified := true }
    if gateOpen = false then v
    else match setUp with
      | .noTarget => v
      | .refused reaches => { v with closed := reaches }
      | .throws => { v with batch := some .empty }
      | .ready framer => { v with batch := some .empty, framer := framer, todo := [⟨false,.connect⟩] }

/-- Items of one queue, batched or one by one. -/
def take (cfg : BatchConfig) (lane : Lane) (b : SessionBatch α) (items : List α) :
    SessionBatch α × List (BatchCall α) :=
  if cfg.batched lane then SessionBatch.appendAll cfg.maxBatchSize lane b items
  else (b,items.map (fun item => ⟨lane,[item]⟩))

/-- The raw item and then the messages. -/
def deliver (cfg : BatchConfig) (b : SessionBatch α) (raw : α) (messages : List α) : View α :=
  let data := take cfg .data b [raw]
  let messages := if v.framer then messages else []
  let framed := take cfg .messages data.1 messages
  { v with batch := some framed.1
           todo := data.2.map (fun call => ⟨false,.receive call⟩) ++
             framed.2.map (fun call => ⟨true,.receive call⟩) }

/-- An overflow drops what waits and fails the session, which closes at once. -/
def overflow (reaches : Bool) : View α :=
  let v : View α := { v with batch := v.batch.map (fun b => { b with data := [], messages := [] }) }
  if reaches then { v with closed := true, batch := none, todo := v.todo ++ [⟨true,.disconnect⟩] } else v

/-- The handler of `on_multi_data`. -/
def data (cfg : BatchConfig) (gateOpen : Bool) (chunk : Chunk α) : View α :=
  if v.notified = false ∨ v.closed ∨ gateOpen = false then v
  else match v.batch with
    | none => v
    | some b => match chunk.outcome with
      | .ok => v.deliver cfg b chunk.raw chunk.messages
      | .rawOverflow => v.overflow chunk.reaches
      | .messageOverflow => (v.deliver cfg b chunk.raw chunk.messages).overflow chunk.reaches

/-- The clock of the batch timer. -/
def expire (index : ℕ) : View α :=
  match v.batch with
  | none => v
  | some b => match b.waits[index]? with
    | some .pending => { v with batch := some { b with waits := b.waits.set index .expired } }
    | _ => v

/-- The completion of a wait: `flush_batches`. -/
def timer (gateOpen : Bool) (index : ℕ) : View α :=
  match v.batch with
  | none => v
  | some b =>
    let done : SessionBatch α := { b with waits := b.waits.eraseIdx index }
    match b.waits[index]? with
    | some .expired =>
      if gateOpen then
        { v with batch := some done.flushBatches.1
                 todo := (SessionBatch.callIfAny .data b.data).map (fun call => ⟨false,.receive call⟩) ++
                   (SessionBatch.callIfAny .messages b.messages).map (fun call => ⟨true,.receive call⟩) }
      else { v with batch := some done }
    | some .aborted => { v with batch := some done }
    | _ => v

/-- The session closes. The transport does not tell while it stops; the handler of
`on_multi_disconnect` flushes the batch first. -/
def close (gateOpen notifies : Bool) : View α :=
  if v.closed then v
  else
    let v : View α := { v with closed := true }
    if notifies = false ∨ gateOpen = false then v
    else match v.batch with
      | none => v
      | some b => { v with batch := none
                           todo := b.flushBatches.2.map (fun call => ⟨true,.receive call⟩) ++ [⟨true,.disconnect⟩] }

end View

/-- The sessions of a run, and the callbacks that were made. -/
structure Sessions (α : Type*) where
  gateOpen : Bool
  views : ℕ → View α
  trace : List (ℕ × Callback α)

inductive SessionOp (α : Type*)
  | connect (id : ℕ) (setUp : SetUp)
  | data (id : ℕ) (chunk : Chunk α)
  | expire (id index : ℕ)
  | timer (id index : ℕ)
  | close (id : ℕ) (notifies : Bool)
  | callback (id : ℕ)
  | stop

namespace Sessions
variable {α : Type*} (s : Sessions α)

def init : Sessions α := ⟨true,fun _ => .init,[]⟩

/-- A handler begins when the one before it on the strand has ended. -/
def begin (id : ℕ) (handler : View α → View α) : Sessions α :=
  if (s.views id).todo.isEmpty then { s with views := Function.update s.views id (handler (s.views id)) } else s

/-- The next callback of the handler that runs. -/
def callback (id : ℕ) : Sessions α :=
  match (s.views id).todo with
  | [] => s
  | due :: rest =>
    if due.guarded ∧ s.gateOpen = false then
      { s with views := Function.update s.views id { s.views id with todo := [] } }
    else { s with views := Function.update s.views id { s.views id with todo := rest }
                  trace := s.trace ++ [(id,due.callback)] }

def step (cfg : BatchConfig) : SessionOp α → Sessions α
  | .connect id setUp => s.begin id (·.connect s.gateOpen setUp)
  | .data id chunk => s.begin id (·.data cfg s.gateOpen chunk)
  | .expire id index => { s with views := Function.update s.views id ((s.views id).expire index) }
  | .timer id index => s.begin id (·.timer s.gateOpen index)
  | .close id notifies => s.begin id (·.close s.gateOpen notifies)
  | .callback id => s.callback id
  | .stop => { s with gateOpen := false }

def run (cfg : BatchConfig) (ops : List (SessionOp α)) : Sessions α := ops.foldl (step · cfg) s

/-- The callbacks of one session, in order. -/
def callbacks (id : ℕ) : List (Callback α) := (s.trace.filter (·.1 = id)).map Prod.snd

end Sessions

/-- A chunk that reaches a session, and whether the session has a framer then. -/
structure Arrival (α : Type*) where
  framer : Bool
  chunk : Chunk α

section Arrivals
variable {α : Type*}

/-- The items that an arrival brings for a queue. -/
def Arrival.items (a : Arrival α) : Lane → List α
  | .data => [a.chunk.raw]
  | .messages => if a.framer then a.chunk.messages else []

def received (arrivals : List (Arrival α)) (lane : Lane) : List α := arrivals.flatMap (·.items lane)

/-- No arrival overflows the budget. -/
def Fit (arrivals : List (Arrival α)) : Prop := ∀ a ∈ arrivals, a.chunk.outcome = .ok

theorem received_append (as bs : List (Arrival α)) (lane : Lane) :
    received (as ++ bs) lane = received as lane ++ received bs lane := List.flatMap_append

theorem received_singleton (a : Arrival α) (lane : Lane) : received [a] lane = a.items lane :=
  List.append_nil _

theorem Fit.of_append {as bs : List (Arrival α)} (h : Fit (as ++ bs)) : Fit as :=
  fun a ha => h a (List.mem_append_left _ ha)

/-- A chunk reaches a session that was announced, is open and has its batch. -/
def View.arrivals (v : View α) (gateOpen : Bool) (chunk : Chunk α) : List (Arrival α) :=
  if v.notified = true ∧ v.closed = false ∧ gateOpen = true ∧ v.batch.isSome then [⟨v.framer,chunk⟩] else []

def SessionOp.arrivals (s : Sessions α) (id : ℕ) : SessionOp α → List (Arrival α)
  | .data target chunk =>
    if target = id ∧ (s.views id).todo.isEmpty then (s.views id).arrivals s.gateOpen chunk else []
  | _ => []

/-- The arrivals of one session in a run. -/
def Sessions.arrivals (cfg : BatchConfig) (id : ℕ) : Sessions α → List (SessionOp α) → List (Arrival α)
  | _, [] => []
  | s, op :: ops => op.arrivals s id ++ arrivals cfg id (s.step cfg op) ops

end Arrivals

section Items
variable {α : Type*}

theorem itemsOf_singles (lane lane' : Lane) (items : List α) :
    itemsOf lane' (items.map (fun item => (⟨lane,[item]⟩ : BatchCall α))) = if lane' = lane then items else [] := by
  induction items with
  | nil =>
    split <;> rfl
  | cons item items ih =>
    have hsplit := itemsOf_append lane' [(⟨lane,[item]⟩ : BatchCall α)] (items.map (fun item => ⟨lane,[item]⟩))
    refine hsplit.trans ?_
    rw [ih]
    by_cases h : lane' = lane
    · simp [itemsOf, h]
    · simp [itemsOf, h, Ne.symm h]

/-- A queue whose items are not batched is empty. -/
def Idle (cfg : BatchConfig) (b : SessionBatch α) : Prop := ∀ lane, cfg.batched lane = false → b.queue lane = []

theorem take_conserves {cfg : BatchConfig} {b : SessionBatch α} (h : Idle cfg b) (lane lane' : Lane) (items : List α) :
    itemsOf lane' (View.take cfg lane b items).2 ++ (View.take cfg lane b items).1.queue lane' =
      if lane' = lane then b.queue lane ++ items else b.queue lane' := by
  unfold View.take
  split
  · exact b.appendAll_conserves cfg.maxBatchSize lane lane' items
  · rename_i hlane
    have hempty := h lane (by simpa using hlane)
    change itemsOf lane' (items.map _) ++ b.queue lane' = _
    rw [itemsOf_singles]
    split
    · rename_i heq
      rw [heq, hempty, List.append_nil, List.nil_append]
    · rfl

/-- An item that is appended to a queue leaves the other one. -/
theorem append_queue_ne {lane lane' : Lane} (h : lane' ≠ lane) (b : SessionBatch α) (n : ℕ) (item : α) :
    (b.append n lane item).1.queue lane' = b.queue lane' := by
  unfold SessionBatch.append
  dsimp only
  split
  · rw [SessionBatch.queue_setQueue, if_neg h]
  · split
    · rw [SessionBatch.queue_scheduleBatchTimer, SessionBatch.queue_setQueue, if_neg h]
    · rw [SessionBatch.queue_setQueue, if_neg h]

theorem appendAll_queue_ne {lane lane' : Lane} (h : lane' ≠ lane) (b : SessionBatch α) (n : ℕ) (items : List α) :
    (SessionBatch.appendAll n lane b items).1.queue lane' = b.queue lane' := by
  induction items generalizing b with
  | nil => rfl
  | cons item items ih => exact (ih _).trans (append_queue_ne h b n item)

theorem Idle.take {cfg : BatchConfig} {b : SessionBatch α} (h : Idle cfg b) (lane : Lane) (items : List α) :
    Idle cfg (View.take cfg lane b items).1 := by
  unfold View.take
  split
  · rename_i hlane
    intro lane' hb
    rw [appendAll_queue_ne (fun heq => by rw [heq, hlane] at hb; cases hb)]
    exact h lane' hb
  · exact h

end Items
section Stages
variable {α : Type*} {cfg : BatchConfig} {gateOpen : Bool} {es : List (Callback α)}
  {as : List (Arrival α)} {v : View α}

/-- The callbacks that the handler still owes. -/
def View.owed (v : View α) : List (Callback α) := v.todo.map Due.callback

/-- Where a session is, with the callbacks that were made for it and what has arrived. -/
inductive Stage (cfg : BatchConfig) (gateOpen : Bool) (es : List (Callback α)) (as : List (Arrival α))
    (v : View α) : Prop
  | silent (he : es = []) (ht : v.todo = []) (hb : v.batch = none) (hr : as = [])
  | up (hn : v.notified = true) (b : SessionBatch α) (hb : v.batch = some b) (hi : Idle cfg b)
      (calls : List (BatchCall α)) (he : es ++ v.owed = .connect :: calls.map .receive)
      (hc : Fit as → ∀ lane, itemsOf lane calls ++ b.queue lane = received as lane)
  | ended (hn : v.notified = true) (hcl : v.closed = true) (hb : v.batch = none) (calls : List (BatchCall α))
      (he : es ++ v.owed = .connect :: calls.map .receive ++ [.disconnect])
      (hc : Fit as → ∀ lane, itemsOf lane calls = received as lane)
  | cut (hg : gateOpen = false) (ht : v.todo = []) (calls : List (BatchCall α))
      (he : es <+: .connect :: calls.map .receive)

namespace Stage

theorem stop (h : Stage cfg gateOpen es as v) : Stage cfg false es as v := by
  cases h with
  | silent he ht hb hr => exact .silent he ht hb hr
  | up hn b hb hi calls he hc => exact .up hn b hb hi calls he hc
  | ended hn hcl hb calls he hc => exact .ended hn hcl hb calls he hc
  | cut hg ht calls he => exact .cut rfl ht calls he

/-- The next callback is made. -/
theorem emit (h : Stage cfg gateOpen es as v) {due : Due α} {rest : List (Due α)} (ht : v.todo = due :: rest) :
    Stage cfg gateOpen (es ++ [due.callback]) as { v with todo := rest } := by
  have howed : es ++ [due.callback] ++ rest.map Due.callback = es ++ v.owed := by
    rw [View.owed, ht, List.append_assoc]
    rfl
  cases h with
  | silent he hempty => rw [ht] at hempty; cases hempty
  | up hn b hb hi calls he hc => exact .up hn b hb hi calls (howed.trans he) hc
  | ended hn hcl hb calls he hc => exact .ended hn hcl hb calls (howed.trans he) hc
  | cut hg hempty => rw [ht] at hempty; cases hempty

/-- The gate is found closed, and the callbacks that are left are not made. -/
theorem drop (h : Stage cfg gateOpen es as v) (hg : gateOpen = false) {due : Due α} {rest : List (Due α)}
    (ht : v.todo = due :: rest) : Stage cfg gateOpen es as { v with todo := [] } := by
  cases h with
  | silent he hempty => rw [ht] at hempty; cases hempty
  | up hn b hb hi calls he hc => exact .cut hg rfl calls ⟨v.owed,he⟩
  | ended hn hcl hb calls he hc =>
    refine .cut hg rfl calls ?_
    -- what is left ends with the disconnect
    have hne : v.owed ≠ [] := by
      rw [View.owed, ht]
      exact List.cons_ne_nil _ _
    obtain ⟨front,last,hfront⟩ : ∃ front last, v.owed = front ++ [last] :=
      ⟨_,_,(List.dropLast_append_getLast hne).symm⟩
    rw [hfront, ← List.append_assoc] at he
    exact ⟨front,(List.append_inj' he rfl).1⟩
  | cut hg' hempty => rw [ht] at hempty; cases hempty

/-- A handler that finds the gate closed makes no callback. -/
theorem quiet (h : Stage cfg gateOpen es as v) {v' : View α} (hn : v.notified = true → v'.notified = true)
    (hc : v.closed = true → v'.closed = true) (hb : v'.batch = v.batch) (ht : v'.todo = v.todo) :
    Stage cfg gateOpen es as v' := by
  have howed : v'.owed = v.owed := by rw [View.owed, ht, View.owed]
  cases h with
  | silent he ht' hb' hr => exact .silent he (ht.trans ht') (hb.trans hb') hr
  | up hn' b hb' hi calls he hcons =>
    exact .up (hn hn') b (hb.trans hb') hi calls (by rw [howed, he]) hcons
  | ended hn' hcl hb' calls he hcons =>
    exact .ended (hn hn') (hc hcl) (hb.trans hb') calls (by rw [howed, he]) hcons
  | cut hg ht' calls he => exact .cut hg (ht.trans ht') calls he

/-- The batch of a session that is up changes without a callback, and no item is lost. -/
theorem rebatch (h : Stage cfg gateOpen es as v) {b b' : SessionBatch α} (hb : v.batch = some b)
    (hq : ∀ lane, b'.queue lane = b.queue lane) : Stage cfg gateOpen es as { v with batch := some b' } := by
  cases h with
  | silent he ht hb' => rw [hb] at hb'; cases hb'
  | up hn b₀ hb' hi calls he hc =>
    obtain rfl : b₀ = b := Option.some.inj (hb'.symm.trans hb)
    refine .up hn b' rfl (fun lane hl => (hq lane).trans (hi lane hl)) calls he ?_
    intro ho lane
    rw [hq]
    exact hc ho lane
  | ended hn hcl hb' => rw [hb] at hb'; cases hb'
  | cut hg ht calls he => exact .cut hg ht calls he

theorem connect (h : Stage cfg gateOpen es as v) {setUp : SetUp} (hs : setUp ≠ .throws) :
    Stage cfg gateOpen es as (v.connect gateOpen setUp) := by
  unfold View.connect
  split
  · exact h
  · rename_i hnew
    have hfresh : Stage cfg gateOpen es as { v with notified := true } :=
      h.quiet (fun _ => rfl) id rfl rfl
    dsimp only
    split
    · exact hfresh
    · rename_i hopen
      cases setUp with
      | noTarget => exact hfresh
      | refused reaches =>
        refine h.quiet (fun _ => rfl) ?_ rfl rfl
        intro hclosed
        exact absurd (Or.inr hclosed) hnew
      | throws => exact absurd rfl hs
      | ready framer =>
        cases h with
        | silent he ht' hb hr =>
          refine .up rfl .empty rfl (fun lane _ => by cases lane <;> rfl) [] (by rw [he]; rfl) ?_
          intro _ lane
          rw [hr]
          cases lane <;> rfl
        | up hn => exact absurd (Or.inl hn) hnew
        | ended hn => exact absurd (Or.inl hn) hnew
        | cut hg => exact absurd hg hopen

/-- The items of a chunk are handed over or enter their queues. -/
theorem deliver {b : SessionBatch α} (hi : Idle cfg b) {calls : List (BatchCall α)}
    (he : es = .connect :: calls.map .receive)
    (hc : Fit as → ∀ lane, itemsOf lane calls ++ b.queue lane = received as lane) (chunk : Chunk α) :
    ∃ b' calls', (v.deliver cfg b chunk.raw chunk.messages).batch = some b' ∧ Idle cfg b' ∧
      es ++ (v.deliver cfg b chunk.raw chunk.messages).owed = .connect :: calls'.map .receive ∧
      (Fit (as ++ [⟨v.framer,chunk⟩]) → ∀ lane,
        itemsOf lane calls' ++ b'.queue lane = received (as ++ [⟨v.framer,chunk⟩]) lane) := by
  let data := View.take cfg .data b [chunk.raw]
  let messages := if v.framer then chunk.messages else []
  let framed := View.take cfg .messages data.1 messages
  have hdata : Idle cfg data.1 := hi.take .data [chunk.raw]
  refine ⟨framed.1,calls ++ data.2 ++ framed.2,rfl,hdata.take .messages messages,?_,?_⟩
  · rw [he]
    simp [View.owed, View.deliver, data, framed, messages, Function.comp_def]
  · intro hfit lane
    have hfirst := take_conserves hi .data lane [chunk.raw]
    have hsecond := take_conserves hdata .messages lane messages
    rw [itemsOf_append, itemsOf_append, List.append_assoc, hsecond, received_append,
      received_singleton]
    cases lane with
    | data =>
      rw [if_neg (by decide), List.append_assoc, hfirst, if_pos rfl, ← List.append_assoc,
        hc (hfit.of_append) .data]
      rfl
    | messages =>
      rw [if_neg (by decide)] at hfirst
      rw [if_pos rfl, List.append_assoc, ← List.append_assoc (itemsOf _ data.2), hfirst, ← List.append_assoc,
        hc (hfit.of_append) .messages]
      rfl

/-- An overflow ends the session, unless the transport does not find it any more. -/
theorem overflow (hno : ¬Fit as) (hn : v.notified = true) {b : SessionBatch α} (hb : v.batch = some b)
    {calls : List (BatchCall α)} (he : es ++ v.owed = .connect :: calls.map .receive) (reaches : Bool) :
    Stage cfg gateOpen es as (v.overflow reaches) := by
  unfold View.overflow
  dsimp only
  split
  · refine .ended hn rfl rfl calls ?_ (fun h => absurd h hno)
    simp only [View.owed, List.map_append, List.map_cons, List.map_nil]
    rw [← List.append_assoc]
    exact congrArg (· ++ [Callback.disconnect]) he
  · refine .up hn { b with data := [], messages := [] } (by rw [hb]; rfl) ?_ calls he
      (fun h => absurd h hno)
    intro lane _
    cases lane <;> rfl

theorem data (h : Stage cfg gateOpen es as v) (ht : v.todo = []) (chunk : Chunk α) :
    Stage cfg gateOpen es (as ++ v.arrivals gateOpen chunk) (v.data cfg gateOpen chunk) := by
  by_cases hdead : v.notified = false ∨ v.closed ∨ gateOpen = false
  · have hno : v.arrivals gateOpen chunk = [] := by
      refine if_neg (fun hup => ?_)
      simp [hup.1, hup.2.1, hup.2.2.1] at hdead
    rw [hno, List.append_nil, View.data, if_pos hdead]
    exact h
  · have hup : v.notified = true ∧ v.closed = false ∧ gateOpen = true := by simpa using hdead
    rw [View.data, if_neg hdead]
    cases hb : v.batch with
    | none =>
      have hno : v.arrivals gateOpen chunk = [] := if_neg (fun hup => by simp [hb] at hup)
      rw [hno, List.append_nil]
      exact h
    | some b =>
      have hone : v.arrivals gateOpen chunk = [⟨v.framer,chunk⟩] :=
        if_pos ⟨hup.1,hup.2.1,hup.2.2,by rw [hb]; rfl⟩
      rw [hone]
      cases h with
      | silent he ht' hb' => rw [hb] at hb'; cases hb'
      | up hn b₀ hb' hi calls he hc =>
        obtain rfl : b₀ = b := Option.some.inj (hb'.symm.trans hb)
        have hes : es = .connect :: calls.map .receive := by
          rw [View.owed, ht] at he
          simpa using he
        obtain ⟨b',calls',hb₁,hi₁,he₁,hc₁⟩ := deliver (v := v) hi hes hc chunk
        have hover : chunk.outcome ≠ .ok → ¬Fit (as ++ [⟨v.framer,chunk⟩]) :=
          fun hne hfit => hne (hfit ⟨v.framer,chunk⟩ (by simp))
        dsimp only
        split
        · exact .up hn b' hb₁ hi₁ calls' he₁ hc₁
        · exact overflow (hover (by simp [*])) hn hb he chunk.reaches
        · exact overflow (v := v.deliver cfg b₀ chunk.raw chunk.messages) (hover (by simp [*])) hn hb₁ he₁
            chunk.reaches
      | ended hn hcl hb' => rw [hb] at hb'; cases hb'
      | cut hg => exact absurd (Or.inr (Or.inr hg)) hdead

theorem expire (h : Stage cfg gateOpen es as v) (index : ℕ) : Stage cfg gateOpen es as (v.expire index) := by
  unfold View.expire
  cases hb : v.batch with
  | none => exact h
  | some b =>
    dsimp only
    split
    · exact h.rebatch hb (BatchedSession.queue_setWaits b _)
    · exact h

/-- The batch is flushed. -/
theorem flush (h : Stage cfg gateOpen es as v) (ht : v.todo = []) {b : SessionBatch α} (hb : v.batch = some b)
    (hopen : gateOpen = true) :
    v.notified = true ∧ ∃ calls, es ++ b.flushBatches.2.map .receive = .connect :: calls.map .receive ∧
      (Fit as → ∀ lane, itemsOf lane calls = received as lane) := by
  cases h with
  | silent he ht' hb' => rw [hb] at hb'; cases hb'
  | up hn b₀ hb' hi calls he hc =>
    obtain rfl : b₀ = b := Option.some.inj (hb'.symm.trans hb)
    refine ⟨hn,calls ++ b₀.flushBatches.2,?_,?_⟩
    · rw [View.owed, ht] at he
      rw [List.map_append, ← List.cons_append, ← he]
      simp
    · intro ho lane
      rw [itemsOf_append, SessionBatch.flush_conserves]
      exact hc ho lane
  | ended hn hcl hb' => rw [hb] at hb'; cases hb'
  | cut hg => rw [hg] at hopen; cases hopen

theorem timer (h : Stage cfg gateOpen es as v) (ht : v.todo = []) (index : ℕ) :
    Stage cfg gateOpen es as (v.timer gateOpen index) := by
  unfold View.timer
  cases hb : v.batch with
  | none => exact h
  | some b =>
    have hdone := h.rebatch hb (BatchedSession.queue_setWaits b (b.waits.eraseIdx index))
    dsimp only
    split
    · split
      · rename_i hopen
        obtain ⟨hn,calls,he,hc⟩ := h.flush ht hb hopen
        have hempty : ∀ lane, SessionBatch.queue
            (SessionBatch.flushBatches { b with waits := b.waits.eraseIdx index }).1 lane = [] := by
          intro lane
          cases lane <;> rfl
        refine .up hn _ rfl (fun lane _ => hempty lane) calls ?_ ?_
        · refine Eq.trans ?_ he
          simp [View.owed, SessionBatch.flushBatches, Function.comp_def]
        · intro ho lane
          rw [hempty, List.append_nil]
          exact hc ho lane
      · exact hdone
    · exact hdone
    · exact h

theorem close (h : Stage cfg gateOpen es as v) (ht : v.todo = []) (notifies : Bool) :
    Stage cfg gateOpen es as (v.close gateOpen notifies) := by
  unfold View.close
  split
  · exact h
  · have hclosed : Stage cfg gateOpen es as { v with closed := true } :=
      h.quiet id (fun _ => rfl) rfl rfl
    dsimp only
    split
    · exact hclosed
    · rename_i hopen
      cases hb : v.batch with
      | none => rw [hb] at hclosed; exact hclosed
      | some b =>
        obtain ⟨hn,calls,he,hc⟩ := h.flush ht hb (by simpa using fun hg => hopen (Or.inr hg))
        refine .ended hn rfl rfl calls ?_ hc
        rw [← he]
        simp [View.owed, Function.comp_def]

/-- What the callbacks of a session look like. -/
theorem in_order (h : Stage cfg gateOpen es as v) :
    (∃ calls : List (BatchCall α), es <+: .connect :: calls.map .receive ++ [.disconnect]) ∧
      (Callback.disconnect ∈ es → Fit as → ∀ lane,
        itemsOf lane (es.filterMap Callback.call?) = received as lane) := by
  have hcalls : ∀ calls : List (BatchCall α), (calls.map Callback.receive).filterMap Callback.call? = calls := by
    intro calls
    induction calls with
    | nil => rfl
    | cons call calls ih => exact congrArg (call :: ·) ih
  have hlast : ∀ calls : List (BatchCall α), es <+: .connect :: calls.map .receive → Callback.disconnect ∉ es := by
    intro calls hpre hmem
    have := hpre.subset hmem
    simp at this
  cases h with
  | silent he => exact ⟨⟨[],by rw [he]; exact List.nil_prefix⟩,fun hmem => by rw [he] at hmem; cases hmem⟩
  | up hn b hb hi calls he hc =>
    have hpre : es <+: .connect :: calls.map .receive := ⟨_,he⟩
    exact ⟨⟨calls,hpre.trans (List.prefix_append _ _)⟩,fun hmem => absurd hmem (hlast calls hpre)⟩
  | ended hn hcl hb calls he hc =>
    refine ⟨⟨calls,⟨_,he⟩⟩,?_⟩
    intro hmem ho lane
    cases howed : v.owed with
    | nil =>
      rw [howed, List.append_nil] at he
      rw [he, List.filterMap_append, List.filterMap_cons_none rfl, hcalls, List.filterMap_cons_none rfl,
        List.filterMap_nil, List.append_nil]
      exact hc ho lane
    | cons first rest =>
      -- something is still owed, so the disconnect is
      obtain ⟨front,last,hfront⟩ : ∃ front last, first :: rest = front ++ [last] :=
        ⟨_,_,(List.dropLast_append_getLast (List.cons_ne_nil _ _)).symm⟩
      rw [howed, hfront, ← List.append_assoc] at he
      exact absurd hmem (hlast calls ⟨front,(List.append_inj' he rfl).1⟩)
  | cut hg ht calls he =>
    exact ⟨⟨calls,he.trans (List.prefix_append _ _)⟩,fun hmem => absurd hmem (hlast calls he)⟩

end Stage

namespace Sessions
variable {s : Sessions α} {id : ℕ}

/-- The stage of one session in a state of the run. -/
def StageAt (cfg : BatchConfig) (s : Sessions α) (id : ℕ) (as : List (Arrival α)) : Prop :=
  Stage cfg s.gateOpen (s.callbacks id) as (s.views id)

theorem StageAt.begin (h : s.StageAt cfg id as) {target : ℕ} {handler : View α → View α}
    (hstep : ∀ es v, Stage cfg s.gateOpen es as v → v.todo = [] → target = id →
      Stage cfg s.gateOpen es as (handler v)) : (s.begin target handler).StageAt cfg id as := by
  unfold Sessions.begin
  split
  · rename_i hidle
    by_cases heq : target = id
    · subst heq
      have := hstep _ _ h (List.isEmpty_iff.mp hidle) rfl
      simpa [StageAt, Sessions.callbacks] using this
    · have hview : Function.update s.views target (handler (s.views target)) id = s.views id :=
        Function.update_of_ne (Ne.symm heq) _ _
      simpa [StageAt, Sessions.callbacks, hview] using h
  · exact h

/-- A callback of another session is not one of this one. -/
theorem callbacks_snoc (trace : List (ℕ × Callback α)) (target id : ℕ) (e : Callback α) :
    ((trace ++ [(target,e)]).filter (·.1 = id)).map Prod.snd =
      (trace.filter (·.1 = id)).map Prod.snd ++ if target = id then [e] else [] := by
  rw [List.filter_append, List.map_append]
  by_cases h : target = id
  · simp [h]
  · simp [h]

theorem StageAt.callback (h : s.StageAt cfg id as) (target : ℕ) : (s.callback target).StageAt cfg id as := by
  unfold Sessions.callback
  cases ht : (s.views target).todo with
  | nil => exact h
  | cons due rest =>
    dsimp only
    by_cases heq : target = id
    · subst heq
      split
      · rename_i hg
        have := Stage.drop h hg.2 ht
        simpa [StageAt, Sessions.callbacks] using this
      · have := Stage.emit h ht
        unfold StageAt Sessions.callbacks
        rw [callbacks_snoc, if_pos rfl]
        simpa [Sessions.callbacks] using this
    · split
      · simpa [StageAt, Sessions.callbacks, Function.update_of_ne (Ne.symm heq)] using h
      · unfold StageAt Sessions.callbacks
        rw [callbacks_snoc, if_neg heq, List.append_nil]
        simpa [StageAt, Sessions.callbacks, Function.update_of_ne (Ne.symm heq)] using h

theorem StageAt.data (h : s.StageAt cfg id as) (target : ℕ) (chunk : Chunk α) :
    (s.step cfg (.data target chunk)).StageAt cfg id (as ++ (SessionOp.data target chunk).arrivals s id) := by
  dsimp only [Sessions.step, SessionOp.arrivals]
  by_cases heq : target = id ∧ (s.views id).todo.isEmpty
  · obtain ⟨rfl,hidle⟩ := heq
    have := Stage.data h (List.isEmpty_iff.mp hidle) chunk
    rw [if_pos ⟨rfl,hidle⟩]
    simpa [Sessions.begin, hidle, StageAt, Sessions.callbacks] using this
  · rw [if_neg heq, List.append_nil]
    unfold Sessions.begin
    split
    · rename_i hidle
      have hne : id ≠ target := fun he => heq ⟨he.symm,he ▸ hidle⟩
      have hview : Function.update s.views target ((s.views target).data cfg s.gateOpen chunk) id = s.views id :=
        Function.update_of_ne hne _ _
      simpa [StageAt, Sessions.callbacks, hview] using h
    · exact h

theorem StageAt.step (h : s.StageAt cfg id as) {op : SessionOp α} (hop : op ≠ .connect id .throws) :
    (s.step cfg op).StageAt cfg id (as ++ op.arrivals s id) := by
  have hquiet : ∀ t : Sessions α, t.StageAt cfg id as → t.StageAt cfg id (as ++ []) := by
    intro t ht
    rwa [List.append_nil]
  cases op with
  | data target chunk => exact h.data target chunk
  | connect target setUp =>
    refine hquiet _ (h.begin (fun es v hv _ heq => hv.connect ?_))
    rintro rfl
    exact hop (by rw [heq])
  | expire target index =>
    apply hquiet
    by_cases heq : target = id
    · subst heq
      have := Stage.expire h index
      simpa [Sessions.step, StageAt, Sessions.callbacks] using this
    · simpa [Sessions.step, StageAt, Sessions.callbacks, Function.update_of_ne (Ne.symm heq)] using h
  | timer target index => exact hquiet _ (h.begin (fun es v hv ht _ => hv.timer ht index))
  | close target notifies => exact hquiet _ (h.begin (fun es v hv ht _ => hv.close ht notifies))
  | callback target => exact hquiet _ (h.callback target)
  | stop => exact hquiet _ (Stage.stop h)

theorem StageAt.run (h : s.StageAt cfg id as) {ops : List (SessionOp α)}
    (hops : SessionOp.connect id .throws ∉ ops) :
    (s.run cfg ops).StageAt cfg id (as ++ s.arrivals cfg id ops) := by
  induction ops generalizing s as with
  | nil =>
    rw [Sessions.arrivals, List.append_nil]
    exact h
  | cons op ops ih =>
    have hrun := ih (h.step (fun he => hops (he ▸ List.mem_cons_self)))
      (fun hmem => hops (List.mem_cons_of_mem _ hmem))
    rwa [List.append_assoc] at hrun

/-- Unless the set-up of the session throws, its callbacks are a prefix of one connect,
receive callbacks and one disconnect, and the disconnect comes when every item that
arrived was handed over, unless an overflow dropped some. -/
theorem session_callbacks_in_order (cfg : BatchConfig) (ops : List (SessionOp α)) (id : ℕ)
    (hops : SessionOp.connect id .throws ∉ ops) :
    (∃ calls : List (BatchCall α), (init.run cfg ops).callbacks id <+:
        .connect :: calls.map .receive ++ [.disconnect]) ∧
      (Callback.disconnect ∈ (init.run cfg ops).callbacks id → Fit (init.arrivals cfg id ops) →
        ∀ lane, itemsOf lane (((init.run cfg ops).callbacks id).filterMap Callback.call?) =
          received (init.arrivals cfg id ops) lane) := by
  have hinit : (init : Sessions α).StageAt cfg id [] := .silent rfl rfl rfl rfl
  exact Stage.in_order (hinit.run hops)

/-- A chunk waits in its batch when its session closes. -/
def closedWithBatch : List (SessionOp ℕ) :=
  [.connect 1 (.ready false),.callback 1,.data 1 ⟨7,[],.ok,true⟩,.close 1 true,.callback 1,.callback 1]

theorem callbacks_in_order_at_close :
    SessionOp.connect 1 .throws ∉ closedWithBatch ∧
      (∃ calls : List (BatchCall ℕ), (init.run ⟨4,true,false⟩ closedWithBatch).callbacks 1 <+:
        .connect :: calls.map .receive ++ [.disconnect]) ∧
      itemsOf .data (((init.run ⟨4,true,false⟩ closedWithBatch).callbacks 1).filterMap Callback.call?) = [7] := by
  have hops : SessionOp.connect 1 .throws ∉ closedWithBatch := by simp [closedWithBatch]
  have hrun := session_callbacks_in_order ⟨4,true,false⟩ closedWithBatch 1 hops
  have hfit : Fit (init.arrivals ⟨4,true,false⟩ 1 closedWithBatch) := by
    intro a ha
    obtain rfl : a = ⟨false,⟨7,[],.ok,true⟩⟩ := List.mem_singleton.mp ha
    rfl
  refine ⟨hops,hrun.1,hrun.2 ?_ hfit .data⟩
  have htrace : (init.run ⟨4,true,false⟩ closedWithBatch).callbacks 1 =
      [.connect,.receive ⟨.data,[7]⟩,.disconnect] := rfl
  rw [htrace]
  simp

/-- The framer factory throws, the session stays up, and its data is handed over. -/
theorem receive_without_connect :
    ¬∃ calls : List (BatchCall ℕ),
      (init.run ⟨4,false,false⟩ [.connect 1 .throws,.data 1 ⟨7,[],.ok,true⟩,.callback 1]).callbacks 1 <+:
        .connect :: calls.map .receive ++ [.disconnect] := by
  rintro ⟨calls,hpre⟩
  have htrace : (init.run ⟨4,false,false⟩ [.connect 1 .throws,.data 1 ⟨7,[],.ok,true⟩,.callback 1]).callbacks 1 =
      [Callback.receive ⟨.data,[7]⟩] := rfl
  rw [htrace, List.cons_append, List.cons_prefix_cons] at hpre
  cases hpre.1

end Sessions
end Stages
end Wirestead.Wrapper.TcpServer
