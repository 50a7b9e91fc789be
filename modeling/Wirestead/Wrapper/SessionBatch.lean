import Wirestead.Wrapper.BoundedReceive

/-! # Batches of received items

A session has one queue for raw data and one for framed messages, and both share a
timer. A timer that is armed again aborts the wait before it, unless that wait has
already expired: then its completion is queued and still says success. The servers all
use these batches; the run at the end is that of a session of the UDP server.
-/
namespace Wirestead.Wrapper

/-- A wait on the batch timer whose completion has not run. -/
inductive TimerWait
  | pending
  | expired
  | aborted
  deriving DecidableEq, Repr

/-- `expires_after`. -/
def TimerWait.cancel : TimerWait → TimerWait
  | .pending => .aborted
  | w => w

/-- The two queues, each with its batch callback. -/
inductive Lane
  | data
  | messages
  deriving DecidableEq, Repr

/-- `SessionBatch`. -/
structure SessionBatch (α : Type*) where
  data : List α
  messages : List α
  scheduled : Bool
  waits : List TimerWait

/-- A call of a batch callback. -/
structure BatchCall (α : Type*) where
  lane : Lane
  items : List α

/-- The items that the callback of a queue was given, in order. -/
def itemsOf {α : Type*} (lane : Lane) (calls : List (BatchCall α)) : List α :=
  ((calls.filter (·.lane = lane)).map BatchCall.items).flatten

namespace SessionBatch
variable {α : Type*} (b : SessionBatch α)

def empty : SessionBatch α := ⟨[],[],false,[]⟩

def queue : Lane → List α
  | .data => b.data
  | .messages => b.messages

def setQueue (items : List α) : Lane → SessionBatch α
  | .data => { b with data := items }
  | .messages => { b with messages := items }

/-- `schedule_batch_timer`. -/
def scheduleBatchTimer : SessionBatch α :=
  if b.scheduled then b
  else { b with scheduled := true, waits := b.waits.map TimerWait.cancel ++ [.pending] }

/-- An item enters its queue, which is flushed when it is full. -/
def append (maxBatchSize : ℕ) (lane : Lane) (item : α) : SessionBatch α × List (BatchCall α) :=
  let items := b.queue lane ++ [item]
  if items.length ≥ maxBatchSize then (b.setQueue [] lane,[⟨lane,items⟩])
  else if items.length = 1 then ((b.setQueue items lane).scheduleBatchTimer,[])
  else (b.setQueue items lane,[])

/-- Items of one queue, one after the other. -/
def appendAll (maxBatchSize : ℕ) (lane : Lane) : SessionBatch α → List α → SessionBatch α × List (BatchCall α)
  | b, [] => (b,[])
  | b, item :: items =>
    let first := b.append maxBatchSize lane item
    let rest := appendAll maxBatchSize lane first.1 items
    (rest.1,first.2 ++ rest.2)

def callIfAny (lane : Lane) (items : List α) : List (BatchCall α) := if items.isEmpty then [] else [⟨lane,items⟩]

/-- `flush_batches`, with the gate open: the data first. -/
def flushBatches : SessionBatch α × List (BatchCall α) :=
  ({ b with data := [], messages := [], scheduled := false },
    callIfAny .data b.data ++ callIfAny .messages b.messages)

end SessionBatch

/-- The batch settings of a run. -/
structure BatchConfig where
  maxBatchSize : ℕ
  dataBatch : Bool
  messageBatch : Bool

/-- Whether the items of a queue are batched. -/
def BatchConfig.batched (cfg : BatchConfig) : Lane → Bool
  | .data => cfg.dataBatch
  | .messages => cfg.messageBatch

/-- A session of the UDP server, and the calls of its batch callbacks so far. -/
structure BatchedSession (α : Type*) where
  batch : SessionBatch α
  live : Bool
  calls : List (BatchCall α)

/-- What happens on the strand: a datagram with what its framer decodes, the clock of the
timer, the completion of a wait, and the reaper, which may find that the session stays. -/
inductive BatchOp (α : Type*)
  | datagram (raw : α) (messages : List α)
  | expire (index : ℕ)
  | complete (index : ℕ)
  | reap (expires : Bool)

section Due
variable {α : Type*}

/-- The items that a datagram brings for a queue. -/
def BatchOp.items : BatchOp α → Lane → List α
  | .datagram raw _, .data => [raw]
  | .datagram _ messages, .messages => messages
  | _, _ => []

/-- Whether the session is still there after a step. -/
def BatchOp.stays : BatchOp α → Bool
  | .reap expires => !expires
  | _ => true

/-- The items that the callback of a queue is to be given: all that arrive for a batched
queue before the reaper removes the session, in order. -/
def BatchConfig.due (cfg : BatchConfig) : List (BatchOp α) → Lane → List α
  | [], _ => []
  | op :: ops, lane => (if cfg.batched lane then op.items lane else []) ++
    if op.stays then cfg.due ops lane else []

end Due

namespace BatchedSession
variable {α : Type*} (s : BatchedSession α)

def init : BatchedSession α := ⟨.empty,true,[]⟩

/-- Items enter their queue. -/
def retain (cfg : BatchConfig) (lane : Lane) (items : List α) : BatchedSession α :=
  let appended := SessionBatch.appendAll cfg.maxBatchSize lane s.batch items
  { s with batch := appended.1, calls := s.calls ++ appended.2 }

def flush : BatchedSession α :=
  { s with batch := s.batch.flushBatches.1, calls := s.calls ++ s.batch.flushBatches.2 }

def datagram (cfg : BatchConfig) (raw : α) (messages : List α) : BatchedSession α :=
  let s := if cfg.batched .data then s.retain cfg .data [raw] else s
  if cfg.batched .messages then s.retain cfg .messages messages else s

def expire (index : ℕ) : BatchedSession α :=
  match s.batch.waits[index]? with
  | some .pending => { s with batch := { s.batch with waits := s.batch.waits.set index .expired } }
  | _ => s

/-- The batch of a session that has gone is not found any more. -/
def complete (index : ℕ) : BatchedSession α :=
  let done : BatchedSession α := { s with batch := { s.batch with waits := s.batch.waits.eraseIdx index } }
  match s.batch.waits[index]? with
  | some .expired => if s.live then done.flush else done
  | some .aborted => done
  | _ => s

def step (cfg : BatchConfig) : BatchOp α → BatchedSession α
  | .datagram raw messages => if s.live then s.datagram cfg raw messages else s
  | .expire index => s.expire index
  | .complete index => s.complete index
  | .reap expires => if s.live then { s.flush with live := !expires } else s

def run (cfg : BatchConfig) (ops : List (BatchOp α)) : BatchedSession α := ops.foldl (step · cfg) s

end BatchedSession

theorem itemsOf_append {α : Type*} (lane : Lane) (xs ys : List (BatchCall α)) :
    itemsOf lane (xs ++ ys) = itemsOf lane xs ++ itemsOf lane ys := by
  simp [itemsOf]

namespace SessionBatch
variable {α : Type*} {b : SessionBatch α}

@[simp] theorem queue_setQueue (items : List α) (lane lane' : Lane) :
    (b.setQueue items lane).queue lane' = if lane' = lane then items else b.queue lane' := by
  cases lane <;> cases lane' <;> rfl

@[simp] theorem queue_scheduleBatchTimer (lane : Lane) : b.scheduleBatchTimer.queue lane = b.queue lane := by
  unfold scheduleBatchTimer
  split
  · rfl
  · cases lane <;> rfl

/-- An item is handed over or waits in its queue, behind those that came before. -/
theorem append_conserves (b : SessionBatch α) (n : ℕ) (lane lane' : Lane) (item : α) :
    itemsOf lane' (b.append n lane item).2 ++ (b.append n lane item).1.queue lane' =
      if lane' = lane then b.queue lane ++ [item] else b.queue lane' := by
  unfold append
  dsimp only
  split
  · by_cases h : lane' = lane
    · simp [itemsOf, h]
    · simp [itemsOf, h, Ne.symm h]
  · split
    · simp [itemsOf]
    · simp [itemsOf]

theorem appendAll_conserves (b : SessionBatch α) (n : ℕ) (lane lane' : Lane) (items : List α) :
    itemsOf lane' (appendAll n lane b items).2 ++ (appendAll n lane b items).1.queue lane' =
      if lane' = lane then b.queue lane ++ items else b.queue lane' := by
  induction items generalizing b with
  | nil =>
    change [] ++ b.queue lane' = _
    split
    · rename_i h
      rw [h, List.append_nil]
      rfl
    · rfl
  | cons item items ih =>
    change itemsOf lane' (_ ++ _) ++ (appendAll n lane (b.append n lane item).1 items).1.queue lane' = _
    rw [itemsOf_append, List.append_assoc, ih]
    have hfirst := b.append_conserves n lane lane' item
    split
    · rename_i h
      subst h
      rw [if_pos rfl] at hfirst
      rw [← List.append_assoc, hfirst, List.append_assoc]
      rfl
    · rename_i h
      rwa [if_neg h] at hfirst

theorem itemsOf_callIfAny (lane lane' : Lane) (items : List α) :
    itemsOf lane' (callIfAny lane items) = if lane' = lane then items else [] := by
  unfold callIfAny
  cases items with
  | nil => simp [itemsOf]
  | cons item items =>
    by_cases h : lane' = lane
    · simp [itemsOf, h]
    · simp [itemsOf, h, Ne.symm h]

theorem flush_conserves (b : SessionBatch α) (lane : Lane) : itemsOf lane b.flushBatches.2 = b.queue lane := by
  change itemsOf lane (_ ++ _) = _
  rw [itemsOf_append, itemsOf_callIfAny, itemsOf_callIfAny]
  cases lane with
  | data => exact List.append_nil _
  | messages => rfl

/-- While no wait is scheduled nothing waits, and a scheduled wait is not aborted. -/
structure Armed (b : SessionBatch α) : Prop where
  idle : b.scheduled = false → ∀ lane, b.queue lane = []
  armed : b.scheduled = true → ∃ w ∈ b.waits, w ≠ .aborted

theorem armed_empty : (empty : SessionBatch α).Armed := ⟨fun _ lane => by cases lane <;> rfl,nofun⟩

theorem scheduled_scheduleBatchTimer (b : SessionBatch α) : b.scheduleBatchTimer.scheduled = true := by
  unfold scheduleBatchTimer
  split
  · rename_i h
    exact h
  · rfl

theorem armed_scheduleBatchTimer (h : b.scheduled = true → ∃ w ∈ b.waits, w ≠ .aborted) :
    b.scheduleBatchTimer.Armed := by
  refine ⟨fun hs => ?_,fun _ => ?_⟩
  · rw [scheduled_scheduleBatchTimer] at hs
    cases hs
  · unfold scheduleBatchTimer
    split
    · rename_i hs
      exact h hs
    · exact ⟨.pending,by simp,nofun⟩

theorem Armed.append (h : b.Armed) (n : ℕ) (lane : Lane) (item : α) : (b.append n lane item).1.Armed := by
  have hwaits : ∀ items, (b.setQueue items lane).waits = b.waits ∧ (b.setQueue items lane).scheduled = b.scheduled := by
    intro items
    cases lane <;> exact ⟨rfl,rfl⟩
  have harmed : ∀ items, (b.setQueue items lane).scheduled = true →
      ∃ w ∈ (b.setQueue items lane).waits, w ≠ .aborted := by
    intro items
    rw [(hwaits items).1, (hwaits items).2]
    exact h.armed
  unfold SessionBatch.append
  dsimp only
  split
  · refine ⟨fun hs lane' => ?_,harmed []⟩
    rw [(hwaits []).2] at hs
    rw [queue_setQueue]
    split
    · rfl
    · exact h.idle hs lane'
  · split
    · exact armed_scheduleBatchTimer (harmed _)
    · rename_i hone
      refine ⟨fun hs lane' => ?_,harmed _⟩
      -- the queue had an item before, so it was scheduled
      rw [(hwaits _).2] at hs
      rw [h.idle hs lane] at hone
      exact absurd rfl hone

theorem Armed.appendAll (h : b.Armed) (n : ℕ) (lane : Lane) (items : List α) :
    (appendAll n lane b items).1.Armed := by
  induction items generalizing b with
  | nil => exact h
  | cons item items ih => exact ih (h.append n lane item)

theorem armed_flushBatches (b : SessionBatch α) : b.flushBatches.1.Armed :=
  ⟨fun _ lane => by cases lane <;> rfl,nofun⟩

end SessionBatch

namespace BatchedSession
variable {α : Type*} {s : BatchedSession α} {kept : Lane → List α}

/-- What was handed over and what waits are the items `kept`. The timer of a live
session is armed, and nothing waits in one that has gone. -/
structure Delivers (kept : Lane → List α) (s : BatchedSession α) : Prop where
  conserves : ∀ lane, itemsOf lane s.calls ++ s.batch.queue lane = kept lane
  armed : s.live = true → s.batch.Armed
  gone : s.live = false → ∀ lane, s.batch.queue lane = []

theorem delivers_init : (init : BatchedSession α).Delivers fun _ => [] :=
  ⟨fun lane => by cases lane <;> rfl,fun _ => SessionBatch.armed_empty,nofun⟩

theorem queue_flush (s : BatchedSession α) (lane : Lane) : s.flush.batch.queue lane = [] := by
  cases lane <;> rfl

/-- The waits do not tell what is in the queues. -/
theorem queue_setWaits (b : SessionBatch α) (waits : List TimerWait) (lane : Lane) :
    ({ b with waits := waits } : SessionBatch α).queue lane = b.queue lane := by
  cases lane <;> rfl

namespace Delivers

theorem of_eq {kept' : Lane → List α} (h : s.Delivers kept) (he : ∀ lane, kept lane = kept' lane) :
    s.Delivers kept' := funext he ▸ h

theorem retain (h : s.Delivers kept) (hl : s.live = true) (cfg : BatchConfig) (lane : Lane)
    (items : List α) : (s.retain cfg lane items).Delivers
      fun lane' => kept lane' ++ if lane' = lane then items else [] := by
  refine ⟨fun lane' => ?_,fun _ => (h.armed hl).appendAll cfg.maxBatchSize lane items,fun hd => ?_⟩
  · have happend := s.batch.appendAll_conserves cfg.maxBatchSize lane lane' items
    change itemsOf lane' (s.calls ++ _) ++ _ = _
    rw [itemsOf_append, List.append_assoc]
    refine (congrArg (itemsOf lane' s.calls ++ ·) happend).trans ?_
    by_cases hlane : lane' = lane
    · subst hlane
      rw [if_pos rfl, if_pos rfl, ← List.append_assoc, h.conserves]
    · rw [if_neg hlane, if_neg hlane, List.append_nil, h.conserves]
  · rw [show s.live = false from hd] at hl
    cases hl

theorem flush (h : s.Delivers kept) : s.flush.Delivers kept := by
  refine ⟨fun lane => ?_,fun _ => s.batch.armed_flushBatches,fun _ => s.queue_flush⟩
  rw [s.queue_flush, List.append_nil]
  change itemsOf lane (s.calls ++ s.batch.flushBatches.2) = kept lane
  rw [itemsOf_append, SessionBatch.flush_conserves, h.conserves]

/-- A batched queue gets the items of its kind, and the other one nothing. -/
theorem datagram (h : s.Delivers kept) (hl : s.live = true) (cfg : BatchConfig) (raw : α)
    (messages : List α) : (s.datagram cfg raw messages).Delivers fun lane =>
      kept lane ++ if cfg.batched lane then (BatchOp.datagram raw messages).items lane else [] := by
  have hraw : (if cfg.batched .data then s.retain cfg .data [raw] else s).Delivers
        (fun lane => kept lane ++ if lane = .data ∧ cfg.batched .data then [raw] else []) ∧
      (if cfg.batched .data then s.retain cfg .data [raw] else s).live = true := by
    split
    · rename_i hb
      simp only [hb, and_true]
      exact ⟨h.retain hl cfg .data [raw],hl⟩
    · rename_i hb
      exact ⟨h.of_eq fun lane => by rw [if_neg (fun hd => hb hd.2), List.append_nil],hl⟩
  unfold BatchedSession.datagram
  dsimp only
  split
  · rename_i hb
    refine (hraw.1.retain hraw.2 cfg .messages messages).of_eq fun lane => ?_
    cases lane <;> simp [BatchOp.items, hb]
  · rename_i hb
    refine hraw.1.of_eq fun lane => ?_
    cases lane <;> simp [BatchOp.items, hb]

/-- The waits may change as long as one that was not aborted stays. -/
theorem setWaits (h : s.Delivers kept) {waits : List TimerWait}
    (hw : s.live = true → (∃ w ∈ s.batch.waits, w ≠ .aborted) → ∃ w ∈ waits, w ≠ .aborted) :
    ({ s with batch := { s.batch with waits := waits } } : BatchedSession α).Delivers kept := by
  refine ⟨fun lane => ?_,fun hl => ⟨fun hs lane => ?_,fun hs => hw hl ((h.armed hl).armed hs)⟩,fun hd lane => ?_⟩
  · rw [queue_setWaits]
    exact h.conserves lane
  · rw [queue_setWaits]
    exact (h.armed hl).idle hs lane
  · rw [queue_setWaits]
    exact h.gone hd lane

theorem expire (h : s.Delivers kept) (index : ℕ) : (s.expire index).Delivers kept := by
  unfold BatchedSession.expire
  split
  · rename_i hi
    have hlt := (List.getElem?_eq_some_iff.mp hi).1
    exact h.setWaits (fun _ _ => ⟨.expired,List.mem_set hlt _,nofun⟩)
  · exact h

/-- A wait that was aborted is not the one that is needed; any other one flushes. -/
theorem complete (h : s.Delivers kept) (index : ℕ) : (s.complete index).Delivers kept := by
  unfold BatchedSession.complete
  dsimp only
  split
  · split
    · refine ⟨fun lane => ?_,fun _ => SessionBatch.armed_flushBatches _,fun _ => queue_flush _⟩
      have hflush := h.flush.conserves lane
      cases lane <;> exact hflush
    · rename_i hd
      exact h.setWaits (fun hl => absurd hl hd)
  · rename_i hi
    refine h.setWaits (fun _ ⟨w,hw,hne⟩ => ⟨w,?_,hne⟩)
    obtain ⟨k,hk⟩ := List.mem_iff_getElem?.mp hw
    refine List.mem_eraseIdx_iff_getElem?.mpr ⟨k,?_,hk⟩
    rintro rfl
    rw [hi] at hk
    cases hk
    exact hne rfl
  · exact h

theorem step (h : s.Delivers kept) (cfg : BatchConfig) (op : BatchOp α) :
    (s.step cfg op).Delivers fun lane =>
      kept lane ++ if s.live = true ∧ cfg.batched lane then op.items lane else [] := by
  have hsame : ∀ {t : BatchedSession α}, t.Delivers kept → (∀ lane, op.items lane = []) →
      t.Delivers fun lane => kept lane ++ if s.live = true ∧ cfg.batched lane then op.items lane else [] := by
    intro t ht hno
    exact ht.of_eq fun lane => by rw [hno, ite_self, List.append_nil]
  cases op with
  | datagram raw messages =>
    unfold BatchedSession.step
    dsimp only
    split
    · rename_i hl
      simpa only [hl, true_and] using h.datagram hl cfg raw messages
    · rename_i hl
      simpa [hl] using h
  | expire index => exact hsame (h.expire index) fun _ => rfl
  | complete index => exact hsame (h.complete index) fun _ => rfl
  | reap expires =>
    refine hsame ?_ fun _ => rfl
    unfold BatchedSession.step
    dsimp only
    split
    · exact ⟨h.flush.conserves,fun _ => s.batch.armed_flushBatches,fun _ => s.queue_flush⟩
    · exact h

end Delivers

/-- Only the reaper ends a session, and no step brings one back. -/
theorem live_step (s : BatchedSession α) (cfg : BatchConfig) (op : BatchOp α) :
    (s.step cfg op).live = (s.live && op.stays) := by
  cases op with
  | datagram raw messages =>
    dsimp only [step, datagram, BatchOp.stays]
    split_ifs <;> simp [retain]
  | expire index =>
    dsimp only [step, expire, BatchOp.stays]
    split <;> simp
  | complete index =>
    dsimp only [step, complete, BatchOp.stays]
    split
    · split <;> simp [flush]
    · simp
    · simp
  | reap expires =>
    dsimp only [step, BatchOp.stays]
    split
    · simp [*]
    · simp [*]

theorem Delivers.run (h : s.Delivers kept) (cfg : BatchConfig) (ops : List (BatchOp α)) :
    (s.run cfg ops).Delivers fun lane => kept lane ++ if s.live then cfg.due ops lane else [] := by
  induction ops generalizing s kept with
  | nil => exact h.of_eq fun lane => by simp [BatchConfig.due]
  | cons op ops ih =>
    refine (ih (h.step cfg op)).of_eq fun lane => ?_
    rw [BatchConfig.due]
    by_cases hl : s.live = true
    · simp only [live_step, hl, true_and, if_true, Bool.true_and, List.append_assoc]
    · simp [live_step, hl]

/-- A wait that was not aborted, once it expires and completes, leaves nothing behind. -/
theorem flushes_of_wait (hl : s.live = true) {index : ℕ} {w : TimerWait} (hi : s.batch.waits[index]? = some w)
    (hw : w ≠ .aborted) (lane : Lane) : ((s.expire index).complete index).batch.queue lane = [] := by
  have hexpired : (s.expire index).batch.waits[index]? = some .expired ∧ (s.expire index).live = true := by
    unfold expire
    rw [hi]
    cases w with
    | pending => exact ⟨List.getElem?_set_self (List.getElem?_eq_some_iff.mp hi).1,hl⟩
    | expired => exact ⟨hi,hl⟩
    | aborted => exact absurd rfl hw
  unfold complete
  dsimp only
  rw [hexpired.1]
  dsimp only
  rw [if_pos hexpired.2]
  exact queue_flush _ lane

/-- On every run of a session, each item that arrives for a batched queue is handed to
its batch callback once and in order, or waits in its queue; and while one waits, a wait
of the timer is outstanding that will flush the queues. -/
theorem batches_delivered_once (cfg : BatchConfig) (ops : List (BatchOp α)) :
    let s := (init : BatchedSession α).run cfg ops
    (∀ lane, itemsOf lane s.calls ++ s.batch.queue lane = cfg.due ops lane) ∧
      (s.live = false → ∀ lane, itemsOf lane s.calls = cfg.due ops lane) ∧
      (s.live = true → ∀ lane, s.batch.queue lane ≠ [] → s.batch.scheduled = true ∧
        ∃ index w, s.batch.waits[index]? = some w ∧ w ≠ .aborted ∧
          ∀ lane, ((s.step cfg (.expire index)).step cfg (.complete index)).batch.queue lane = []) := by
  intro s
  have h : s.Delivers (cfg.due ops) := delivers_init.run cfg ops
  refine ⟨h.conserves,fun hd lane => ?_,fun hl lane hne => ?_⟩
  · have hall := h.conserves lane
    rwa [h.gone hd lane, List.append_nil] at hall
  · have hs : s.batch.scheduled = true := by
      refine Bool.eq_true_of_not_eq_false (fun hs => ?_)
      exact hne ((h.armed hl).idle hs lane)
    obtain ⟨w,hw,hne'⟩ := (h.armed hl).armed hs
    obtain ⟨index,hi⟩ := List.mem_iff_getElem?.mp hw
    exact ⟨hs,index,w,hi,hne',flushes_of_wait hl hi hne'⟩

end BatchedSession
end Wirestead.Wrapper
