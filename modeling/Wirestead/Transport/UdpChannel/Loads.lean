import Wirestead.Transport.UdpChannel.Strand

/-! # What the statistics of a UDP channel count

The bytes of a list of datagrams, all of them or those of one session, and each operation
on the counters as one update of the state.
-/
namespace Wirestead.Transport.UdpChannel
open Diagnostics Sizes TcpClient

def bytes (items : List TxItem) : ℕ := (items.map TxItem.size).sum

/-- The bytes of one session. -/
def load (session : ℕ) (items : List TxItem) : ℕ := bytes (items.filter (·.session = some session))

@[simp] theorem bytes_nil : bytes [] = 0 := rfl

@[simp] theorem bytes_cons (item : TxItem) (items : List TxItem) : bytes (item :: items) = item.size + bytes items := by
  simp [bytes]

@[simp] theorem bytes_append (items more : List TxItem) : bytes (items ++ more) = bytes items + bytes more := by
  simp [bytes]

@[simp] theorem load_nil (i : ℕ) : load i [] = 0 := rfl

@[simp] theorem load_cons (i : ℕ) (item : TxItem) (items : List TxItem) :
    load i (item :: items) = (if item.session = some i then item.size else 0) + load i items := by
  unfold load
  rw [List.filter_cons]
  split_ifs <;> simp_all

@[simp] theorem load_append (i : ℕ) (items more : List TxItem) :
    load i (items ++ more) = load i items + load i more := by
  simp [load]

/-- Releases of a session add up. -/
theorem release_load (i q : ℕ) (item : TxItem) (items : List TxItem) :
    (if item.session = some i then release q item.size else q) - load i items = q - load i (item :: items) := by
  rw [release_eq, load_cons]
  split_ifs <;> omega

/-- The bytes of a list are those that pass a test and those that fail it. -/
theorem bytes_filter_add (p : TxItem → Bool) (items : List TxItem) :
    bytes (items.filter p) + bytes (items.filter (fun item => !p item)) = bytes items := by
  induction items with
  | nil => rfl
  | cons item items ih =>
    cases hp : p item <;> simp [hp] <;> omega

theorem load_filter_add (i : ℕ) (p : TxItem → Bool) (items : List TxItem) :
    load i (items.filter p) + load i (items.filter (fun item => !p item)) = load i items := by
  induction items with
  | nil => rfl
  | cons item items ih =>
    cases hp : p item <;> simp [hp] <;> omega

/-- The `queued` of every session that has statistics. -/
def recount (waits : List UdpWriteWait) (f : ℕ → ℕ → ℕ) : List UdpWriteWait :=
  waits.mapIdx (fun i w => if w.accounting.isSome then { w with queued := f i w.queued } else w)

@[simp] theorem length_recount (waits : List UdpWriteWait) (f : ℕ → ℕ → ℕ) : (recount waits f).length = waits.length :=
  List.length_mapIdx

theorem getElem?_recount (waits : List UdpWriteWait) (f : ℕ → ℕ → ℕ) (i : ℕ) : (recount waits f)[i]? =
    waits[i]?.map (fun w => if w.accounting.isSome then { w with queued := f i w.queued } else w) :=
  List.getElem?_mapIdx

theorem recount_self {waits : List UdpWriteWait} {f : ℕ → ℕ → ℕ} (hf : ∀ i q, f i q = q) : recount waits f = waits := by
  apply List.ext_getElem?
  intro i
  rw [getElem?_recount]
  cases waits[i]? with
  | none => rfl
  | some w => simp [hf]

theorem recount_recount (waits : List UdpWriteWait) (f g : ℕ → ℕ → ℕ) :
    recount (recount waits f) g = recount waits (fun i q => g i (f i q)) := by
  apply List.ext_getElem?
  intro i
  rw [getElem?_recount, getElem?_recount, getElem?_recount]
  cases waits[i]? with
  | none => rfl
  | some w => cases hw : w.accounting <;> simp [hw]

theorem recount_congr {waits : List UdpWriteWait} {f g : ℕ → ℕ → ℕ} (h : ∀ i q, f i q = g i q) :
    recount waits f = recount waits g := by
  have hfg : f = g := funext fun i => funext fun q => h i q
  rw [hfg]

namespace Strand
variable {N : Type*} (s : Strand N)

theorem tallyQueued_eq (session : Option ℕ) (f : ℕ → ℕ) : s.tallyQueued session f =
    { s with channel.writeWaits := recount s.channel.writeWaits (fun i q => if session = some i then f q else q) } := by
  cases session with
  | none =>
    rw [recount_self (by simp)]
    rfl
  | some index =>
    have hwaits : s.channel.writeWaits.modify index (fun w =>
        if w.accounting.isSome then { w with queued := f w.queued } else w) =
        recount s.channel.writeWaits (fun i q => if some index = some i then f q else q) := by
      apply List.ext_getElem?
      intro i
      rw [getElem?_recount, List.getElem?_modify]
      by_cases hi : index = i
      · simp [hi]
      · simp [hi]
    rw [← hwaits]
    rfl

theorem tallyParked_eq (session : Option ℕ) (f : ℕ → ℕ) : s.tallyParked session f =
    { s with parked := fun i => if session = some i then f (s.parked i) else s.parked i } := by
  cases session with
  | none => simp [tallyParked]
  | some index =>
    have hparked : Function.update s.parked index (f (s.parked index)) =
        fun i => if some index = some i then f (s.parked i) else s.parked i := by
      funext i
      by_cases hi : i = index
      · simp [hi]
      · simp [hi, Ne.symm hi]
    rw [← hparked]
    rfl

/-- Datagrams leave `tx_`. -/
theorem foldl_dropQueued (items : List TxItem) : items.foldl dropQueued s =
    { s with channel.counters.queueBytes := s.channel.counters.queueBytes - bytes items
             channel.writeWaits := recount s.channel.writeWaits (fun i q => q - load i items) } := by
  induction items generalizing s with
  | nil =>
    rw [recount_self (by simp)]
    rfl
  | cons item items ih =>
    rw [List.foldl_cons, ih, dropQueued, tallyQueued_eq]
    dsimp only
    rw [recount_recount, releaseReservedWriteBytes, release_eq]
    have hsub : ∀ q, q - item.size - bytes items = q - bytes (item :: items) := fun q => by
      rw [bytes_cons, Nat.sub_sub]
    rw [hsub, recount_congr (fun i q => release_load i q item items)]

theorem dropQueued_eq (item : TxItem) : s.dropQueued item =
    { s with channel.counters.queueBytes := s.channel.counters.queueBytes - item.size
             channel.writeWaits := recount s.channel.writeWaits (fun i q => q - load i [item]) } := by
  simpa using s.foldl_dropQueued [item]

/-- Datagrams leave `pending_`. -/
theorem foldl_dropParked (items : List TxItem) : items.foldl dropParked s =
    { s with channel.counters.pendingBytes := s.channel.counters.pendingBytes - bytes items
             parked := fun i => s.parked i - load i items } := by
  induction items generalizing s with
  | nil => rfl
  | cons item items ih =>
    rw [List.foldl_cons, ih, dropParked, tallyParked_eq]
    dsimp only
    rw [release_eq, bytes_cons, Nat.sub_sub, funext (fun i => release_load i (s.parked i) item items)]

/-- Datagrams move from `pending_` to `tx_`. -/
theorem foldl_moveUp (items : List TxItem) : items.foldl moveUp s =
    { s with channel.writeWaits := recount s.channel.writeWaits (fun i q => q + load i items)
             parked := fun i => s.parked i - load i items } := by
  induction items generalizing s with
  | nil =>
    rw [recount_self (by simp)]
    rfl
  | cons item items ih =>
    rw [List.foldl_cons, ih, moveUp, tallyParked_eq, tallyQueued_eq]
    dsimp only
    rw [recount_recount]
    have hqueued : ∀ i q, (if item.session = some i then q + item.size else q) + load i items =
        q + load i (item :: items) := fun i q => by
      rw [load_cons]
      split_ifs <;> omega
    rw [recount_congr hqueued, funext (fun i => release_load i (s.parked i) item items)]

theorem releaseSessions_eq : s.releaseSessions =
    { s with channel.writeWaits := recount s.channel.writeWaits (fun i q => q - load i s.channel.tx)
             parked := fun i => s.parked i - load i s.channel.pending } := by
  have hqueued : ∀ (items : List TxItem) (s : Strand N),
      items.foldl (fun s item => s.tallyQueued item.session (release · item.size)) s =
      { s with channel.writeWaits := recount s.channel.writeWaits (fun i q => q - load i items) } := by
    intro items
    induction items with
    | nil =>
      intro s
      rw [recount_self (by simp)]
      rfl
    | cons item items ih =>
      intro s
      rw [List.foldl_cons, ih, tallyQueued_eq]
      dsimp only
      rw [recount_recount]
      rw [recount_congr (fun i q => release_load i q item items)]
  have hparked : ∀ (items : List TxItem) (s : Strand N),
      items.foldl (fun s item => s.tallyParked item.session (release · item.size)) s =
      { s with parked := fun i => s.parked i - load i items } := by
    intro items
    induction items with
    | nil => exact fun _ => rfl
    | cons item items ih =>
      intro s
      rw [List.foldl_cons, ih, tallyParked_eq]
      dsimp only
      rw [funext (fun i => release_load i (s.parked i) item items)]
  rw [releaseSessions, hqueued, hparked]

/-- `drain_and_clear_backpressure` before its callback. -/
def cleared : Strand N :=
  { s.releaseSessions with channel.tx := []
                           channel.pending := []
                           channel.counters := ⟨0,0,s.releaseSessions.channel.counters.inflightBytes⟩
                           channel.backpressureActive := false }

theorem cleared_eq : s.cleared =
    { s with channel.writeWaits := recount s.channel.writeWaits (fun i q => q - load i s.channel.tx)
             channel.tx := []
             channel.pending := []
             channel.counters := ⟨0,0,s.channel.counters.inflightBytes⟩
             channel.backpressureActive := false
             parked := fun i => s.parked i - load i s.channel.pending } := by
  rw [cleared, releaseSessions_eq]

/-- The OFF transition before its callback. -/
def relieved : Strand N :=
  let flushed := s.flushPendingIntoTx
  { flushed.2 with channel.counters.queueBytes := add flushed.2.channel.counters.queueBytes flushed.1
                   channel.backpressureActive := false }

theorem relieved_eq : s.relieved =
    { s with channel.writeWaits := recount s.channel.writeWaits (fun i q => q + load i s.channel.pending)
             channel.tx := s.channel.tx ++ s.channel.pending
             channel.pending := []
             channel.counters :=
              ⟨add s.channel.counters.queueBytes s.channel.counters.pendingBytes,0,s.channel.counters.inflightBytes⟩
             channel.backpressureActive := false
             parked := fun i => s.parked i - load i s.channel.pending } := by
  rw [relieved, flushPendingIntoTx, foldl_moveUp]

theorem discardSessionQueue_eq (session : ℕ) : s.discardSessionQueue session =
    { s with
      channel.writeWaits := recount s.channel.writeWaits
        (fun i q => q - load i (s.channel.tx.filter (·.session = some session)))
      channel.tx := s.channel.tx.filter (·.session ≠ some session)
      channel.pending := s.channel.pending.filter (·.session ≠ some session)
      channel.counters :=
        ⟨s.channel.counters.queueBytes - bytes (s.channel.tx.filter (·.session = some session)),
          s.channel.counters.pendingBytes - bytes (s.channel.pending.filter (·.session = some session)),
          s.channel.counters.inflightBytes⟩
      parked := fun i => s.parked i - load i (s.channel.pending.filter (·.session = some session)) } := by
  rw [discardSessionQueue, foldl_dropQueued, foldl_dropParked]

end Strand
end Wirestead.Transport.UdpChannel
