import Wirestead.Diagnostics.LedgerRequests
import Wirestead.Transport.UdpChannel.Loads
import Mathlib.Logic.Relation

/-! # The moves that the handlers of a UDP channel are made of

A handler takes up at most one datagram, and calls from other threads fall between its
moves. A move says all that one step can change and what the handler has looked at
before; the handlers are paths of moves.
-/
namespace Wirestead.Transport.UdpChannel
open Diagnostics Sizes TcpClient

/-- What a handler has taken up: a datagram from the strand, from the front of `tx_` or from
the socket, a completed send, or the session that it expires. -/
inductive Hand
  | empty
  | posted (item : TxItem)
  | tried (item : TxItem)
  | current (item : TxItem)
  | sent (item : TxItem)
  | done
  | expiring (session : ℕ)
  deriving DecidableEq, Repr

def Post.hand : Post → Hand
  | .write (.enqueue item _) => .posted item
  | .write (.tryEnqueue item _) => .tried item
  | .write (.oversized _) => .empty
  | .expire session _ => .expiring session

def Post.generation : Post → ℕ
  | .write (.enqueue _ generation) => generation
  | .write (.tryEnqueue _ generation) => generation
  | .write (.oversized generation) => generation
  | .expire _ generation => generation

namespace Strand
variable {N : Type*} [CommRing N] (cfg : Config)

/-- A transition to an error before its callbacks. -/
def ended (s : Strand N) : Strand N :=
  cleared { s with channel := { s.channel.failWrites with terminalStateNotified := true, state := .error } }

/-- What a throw of `async_send_to` leaves before the transition. -/
def thrown (s : Strand N) (item : TxItem) : Strand N :=
  let s := tallyQueued { s with channel.ledger := (s.channel.ledger.beginLocked item.request).1, writing := true }
    item.session (release · item.size)
  { s with channel := s.channel.failWrites, writing := false }

omit [CommRing N] in
/-- A plain write goes to `pending_`. -/
def parkedWith (s : Strand N) (item : TxItem) : Strand N :=
  let s : Strand N := { s with channel.counters := commitReservedLimitBytes s.channel.counters .pending item.size }
  let s := s.tallyParked item.session (· + item.size)
  { s with channel.pending := s.channel.pending ++ [item] }

omit [CommRing N] in
/-- A plain write goes to `tx_`. -/
def queuedWith (s : Strand N) (item : TxItem) : Strand N :=
  let s : Strand N := { s with channel.counters := commitReservedLimitBytes s.channel.counters .queue item.size }
  let s := s.tallyQueued item.session (· + item.size)
  { s with channel.tx := s.channel.tx ++ [item] }

/-- What an entry point has seen when it reserves bytes. -/
structure Admits (s : Strand N) (data : List UInt8) (destination : Option Endpoint) (session : Option ℕ) : Prop where
  opened : s.channel.opened = true
  running : s.channel.state.terminal = false
  nonempty : data ≠ []
  routable : destination.isSome ∨ s.channel.remoteEndpoint.isSome
  live : s.channel.sessionEnded session = false
  known : ∀ i, session = some i → i < s.channel.writeWaits.length
  addressed : destination = none → session = none

/-- A datagram is admitted and its handler posted. -/
def admitted (s : Strand N) (counters : Counters) (data : List UInt8) (storage : Storage)
    (destination : Option Endpoint) (session : Option ℕ) (handler : TxItem → ℕ → Handler) : Strand N :=
  s.collect (s.channel.accept counters data storage destination session handler).1

/-- What a call can change, in one look at the channel. -/
inductive Grow : Strand N → Strand N → Prop
  | capture (s : Strand N) (tracked : Bool) (hopen : s.channel.opened = true) :
    Grow s { s with channel.writeWaits := s.channel.writeWaits ++
      [⟨s.channel.generation,none,if tracked then some s.channel.writeWaits.length else none,0⟩] }
  | endWaits (s : Strand N) (waits : List UdpWriteWait)
      (hends : List.Forall₂ (fun w w' => w' = w ∨ ∃ reason, w' = UdpWriteWait.end w reason) s.channel.writeWaits waits) :
    Grow s { s with channel.writeWaits := waits }
  | expire (s : Strand N) (session : ℕ) (wait : UdpWriteWait) (group : ℕ)
      (hwait : s.channel.writeWaits[session]? = some wait) (hgroup : wait.accounting = some group) :
    Grow s (s.expireSession session)
  | accept (s : Strand N) (data : List UInt8) (storage : Storage) (destination : Option Endpoint)
      (session : Option ℕ) (counters : Counters) (hadmits : s.Admits data destination session)
      (hroom : tryReserveLimitBytes s.channel.counters data.length cfg.bpLimit = some (true,counters)) :
    Grow s (s.admitted counters data storage destination session .enqueue)
  | tryAdmit (s : Strand N) (data : List UInt8) (storage : Storage) (destination : Option Endpoint)
      (session : Option ℕ) (counters : Counters) (hadmits : s.Admits data destination session)
      (hroom : tryReserveWriteBytesLocked s.channel.counters s.channel.backpressureActive data.length cfg.bpHigh
        cfg.bpLimit = some (true,counters)) :
    Grow s ((s.admitted counters data storage destination session .tryEnqueue).tallyQueued session
      (· + data.length))
  | refuseOversized (s : Strand N) :
    Grow s { s with queue := s.queue ++ [.write (.oversized s.channel.generation)] }
  | turn (s : Strand N) (script : Script) : Grow s { s with script := script }

/-- A step of a handler, or a call between two steps. -/
inductive Move : Strand N × Hand → Strand N × Hand → Prop
  | grow (s t : Strand N) (h : Hand) (hgrow : Grow cfg s t) : Move (s,h) (t,h)
  | take (s : Strand N) (post : Post) (rest : List Post) (hqueue : s.queue = post :: rest) :
    Move (s,.empty) ({ s with queue := rest },post.hand)
  | takeSent (s : Strand N) (item : TxItem) (rest : List TxItem) (hsending : s.channel.sending = item :: rest) :
    Move (s,.empty) ({ s with channel.sending := rest },.sent item)
  | forget (s : Strand N) (item : TxItem) (hgone : s.closed = true ∨ s.channel.ledger.contains item.request = false) :
    Move (s,.posted item)
      ({ s with channel.counters := releaseReservedLimitBytes s.channel.counters item.size },.empty)
  | refuse (s : Strand N) (item : TxItem) (hfull : decideEnqueue s.channel.counters.queueBytes
      s.channel.counters.pendingBytes s.channel.backpressureActive item.size cfg.bpLimit = some .rejected) :
    Move (s,.posted item) ({ s with
      channel.counters := releaseReservedLimitBytes s.channel.counters item.size
      channel.ledger := s.channel.ledger.discard item.request .queuePressure },.empty)
  | park (s : Strand N) (item : TxItem) (hopen : s.closed = false)
      (hlive : s.channel.ledger.contains item.request = true) (hactive : s.channel.backpressureActive = true) :
    Move (s,.posted item) (s.parkedWith item,.empty)
  | enqueue (s : Strand N) (item : TxItem) (hopen : s.closed = false)
      (hlive : s.channel.ledger.contains item.request = true) (hactive : s.channel.backpressureActive = false) :
    Move (s,.posted item) (s.queuedWith item,.empty)
  | enqueueTried (s : Strand N) (item : TxItem) (hopen : s.closed = false) :
    Move (s,.tried item) ({ s with channel.tx := s.channel.tx ++ [item] },.empty)
  | dropTried (s : Strand N) (item : TxItem) (hgone : s.closed = true ∨
      s.channel.ledger.contains item.request = false ∨
      (item.destination = none ∧ s.channel.remoteEndpoint = none)) :
    Move (s,.tried item) (s.dropQueued item,.empty)
  | activate (s : Strand N) (h : Hand) (hhigh : cfg.bpHigh ≤ s.channel.counters.queueBytes ∨ s.closed = false) :
    Move (s,h) ({ s with channel.backpressureActive := true },h)
  | relieve (s : Strand N) (h : Hand) (hactive : s.channel.backpressureActive = true) : Move (s,h) (s.relieved,h)
  | dropDead (s : Strand N) (h : Hand) (item : TxItem) (rest : List TxItem) (htx : s.channel.tx = item :: rest)
      (hdead : s.channel.ledger.contains item.request = false) :
    Move (s,h) (dropQueued { s with channel.tx := rest } item,h)
  | pick (s : Strand N) (item : TxItem) (rest : List TxItem) (htx : s.channel.tx = item :: rest)
      (hwriting : s.writing = false) :
    Move (s,.empty) ({ s with channel.tx := rest },.current item)
  | dropUnroutable (s : Strand N) (item : TxItem)
      (hnone : item.destination = none ∧ s.channel.remoteEndpoint = none) :
    Move (s,.current item) ({ (dropQueued { s with
      channel.ledger := s.channel.ledger.discard item.request .connectionLoss } item) with writing := false },.empty)
  | dropCurrent (s : Strand N) (item : TxItem) (hdead : s.channel.ledger.contains item.request = false) :
    Move (s,.current item) (s.dropQueued item,.empty)
  | handOver (s : Strand N) (item : TxItem) (hlive : s.channel.ledger.contains item.request = true) :
    Move (s,.current item) ({ s with channel.ledger := (s.channel.ledger.beginLocked item.request).1
                                     channel.sending := [item]
                                     writing := true
                                     events := s.events ++ [.handed item] },.empty)
  | throwing (s : Strand N) (item : TxItem) (hopen : s.channel.state.terminal = false) :
    Move (s,.current item) ((s.thrown item).ended,.empty)
  | complete (s : Strand N) (item : TxItem) (written : ℕ) :
    Move (s,.sent item)
      (dropQueued { s with channel.ledger := s.channel.ledger.completeLocked item.request written } item,.done)
  | fail (s : Strand N) (item : TxItem) (written : ℕ) :
    Move (s,.sent item) (dropQueued { s with channel := { s.channel with
      ledger := s.channel.ledger.completeLocked item.request written }.failWrites } item,.done)
  | discard (s : Strand N) (session : ℕ) : Move (s,.expiring session) (s.discardSessionQueue session,.empty)
  | error (s : Strand N) (h : Hand) (hempty : h = .empty ∨ h = .done) (hopen : s.channel.state.terminal = false) :
    Move (s,h) (s.ended,h)
  | clear (s : Strand N) (h : Hand) (hclosed : s.closed = true) : Move (s,h) (s.cleared,h)
  | rest (s : Strand N) : Move (s,.done) ({ s with writing := false },.empty)

/-- Waits that are ended one at a time. -/
theorem forall₂_modify_end (waits : List UdpWriteWait) (session : ℕ) (reason : SendRejection) :
    List.Forall₂ (fun w w' => w' = w ∨ ∃ reason, w' = UdpWriteWait.end w reason) waits
      (waits.modify session (·.end reason)) := by
  rw [List.forall₂_iff_get]
  refine ⟨(List.length_modify ..).symm,fun i hi hi' => ?_⟩
  simp only [List.get_eq_getElem, List.getElem_modify]
  split_ifs
  · exact .inr ⟨reason,rfl⟩
  · exact .inl rfl

theorem forall₂_map_end (waits : List UdpWriteWait) (reason : SendRejection) :
    List.Forall₂ (fun w w' => w' = w ∨ ∃ reason, w' = UdpWriteWait.end w reason) waits (waits.map (·.end reason)) := by
  rw [List.forall₂_map_right_iff]
  exact List.forall₂_same.mpr (fun w _ => .inr ⟨_,rfl⟩)

/-- What any number of calls can change. -/
abbrev Growth : Strand N → Strand N → Prop := Relation.ReflTransGen (Grow cfg)

/-- A path of moves. -/
abbrev Path : Strand N × Hand → Strand N × Hand → Prop := Relation.ReflTransGen (Move cfg)

variable {cfg} {s : Strand N} {h : Hand}

theorem Grow.growth {t : Strand N} (g : Grow cfg s t) : Growth cfg s t := .single g

theorem Move.path {p q : Strand N × Hand} (m : Move cfg p q) : Path cfg p q := .single m

theorem Growth.path {t : Strand N} (g : Growth cfg s t) : Path cfg (s,h) (t,h) := by
  induction g with
  | refl => exact .refl
  | tail _ g ih => exact ih.tail (.grow _ _ h g)

theorem ended_eq (s : Strand N) : s.ended = { s with
    channel := { s.channel with
      ledger := s.channel.ledger.endAll .connectionLoss
      opened := false
      connected := false
      writeWaits := recount (s.channel.writeWaits.map (·.end .notReady)) (fun i q => q - load i s.channel.tx)
      terminalStateNotified := true
      state := .error
      tx := []
      pending := []
      counters := ⟨0,0,s.channel.counters.inflightBytes⟩
      backpressureActive := false }
    parked := fun i => s.parked i - load i s.channel.pending } := by
  rw [ended, cleared_eq]
  rfl

theorem thrown_eq (s : Strand N) (item : TxItem) : s.thrown item = { s with
    channel := { s.channel with
      ledger := (s.channel.ledger.beginLocked item.request).1.endAll .connectionLoss
      opened := false
      connected := false
      writeWaits := (recount s.channel.writeWaits
        (fun i q => if item.session = some i then release q item.size else q)).map
        (·.end .notReady) }
    writing := false } := by
  rw [thrown, tallyQueued_eq]
  rfl

omit [CommRing N] in
theorem parkedWith_eq (s : Strand N) (item : TxItem) : s.parkedWith item = { s with
    channel.counters := commitReservedLimitBytes s.channel.counters .pending item.size
    channel.pending := s.channel.pending ++ [item]
    parked := fun i => if item.session = some i then s.parked i + item.size else s.parked i } := by
  rw [parkedWith, tallyParked_eq]

omit [CommRing N] in
theorem queuedWith_eq (s : Strand N) (item : TxItem) : s.queuedWith item = { s with
    channel.counters := commitReservedLimitBytes s.channel.counters .queue item.size
    channel.tx := s.channel.tx ++ [item]
    channel.writeWaits :=
      recount s.channel.writeWaits (fun i q => if item.session = some i then q + item.size else q) } := by
  rw [queuedWith, tallyQueued_eq]

omit [CommRing N] in
/-- The datagram of the next admission. -/
def newItem (s : Strand N) (data : List UInt8) (storage : Storage) (destination : Option Endpoint)
    (session : Option ℕ) : TxItem := ⟨data,storage,destination,s.channel.ledger.nextId + 1,session⟩

theorem admitted_eq (s : Strand N) (counters : Counters) (data : List UInt8) (storage : Storage)
    (destination : Option Endpoint) (session : Option ℕ) (handler : TxItem → ℕ → Handler)
    (hitem : ∀ item g, (handler item g).item? = some item) :
    s.admitted counters data storage destination session handler = { s with
      channel.counters := counters
      channel.ledger := (s.channel.ledger.admitRequest data.length (s.channel.accounting session)).1
      queue := s.queue ++ [.write (handler (s.newItem data storage destination session) s.channel.generation)]
      events :=
        s.events ++ [.admitted (handler (s.newItem data storage destination session) s.channel.generation)] } := by
  have hid : (s.channel.ledger.admitRequest data.length (s.channel.accounting session)).2 =
    s.channel.ledger.nextId + 1 := rfl
  simp [admitted, collect, Channel.accept, hitem, hid, newItem]

theorem expireSession_eq {session group : ℕ} {wait : UdpWriteWait} (hwait : s.channel.writeWaits[session]? = some wait)
    (hgroup : wait.accounting = some group) : s.expireSession session = { s with
      channel.writeWaits := s.channel.writeWaits.modify session (·.end .notReady)
      channel.ledger := s.channel.ledger.discardWaiting (some group) .sessionExpiry
      queue := s.queue ++ [.expire session s.channel.generation]
      events := s.events ++ [.expired session] } := by
  unfold expireSession
  rw [hwait]
  dsimp only
  rw [hgroup]

/-- What no call touches: a handler finds the queues as it left them. -/
structure Kept (s t : Strand N) : Prop where
  tx : t.channel.tx = s.channel.tx
  pending : t.channel.pending = s.channel.pending
  sending : t.channel.sending = s.channel.sending
  writing : t.writing = s.writing
  parked : t.parked = s.parked
  active : t.channel.backpressureActive = s.channel.backpressureActive
  state : t.channel.state = s.channel.state
  closed : t.closed = s.closed
  opened : t.channel.opened = s.channel.opened
  stopRequested : t.channel.stopRequested = s.channel.stopRequested
  stopping : t.channel.stopping = s.channel.stopping
  notified : t.channel.terminalStateNotified = s.channel.terminalStateNotified
  remote : t.channel.remoteEndpoint = s.channel.remoteEndpoint
  generation : t.channel.generation = s.channel.generation
  queue : s.queue <+: t.queue

omit [CommRing N] in
theorem Kept.refl (s : Strand N) : Kept s s :=
  ⟨rfl,rfl,rfl,rfl,rfl,rfl,rfl,rfl,rfl,rfl,rfl,rfl,rfl,rfl,List.prefix_rfl⟩

omit [CommRing N] in
theorem Kept.trans {t u : Strand N} (h : Kept s t) (k : Kept t u) : Kept s u where
  tx := k.tx.trans h.tx
  pending := k.pending.trans h.pending
  sending := k.sending.trans h.sending
  writing := k.writing.trans h.writing
  parked := k.parked.trans h.parked
  active := k.active.trans h.active
  state := k.state.trans h.state
  closed := k.closed.trans h.closed
  opened := k.opened.trans h.opened
  stopRequested := k.stopRequested.trans h.stopRequested
  stopping := k.stopping.trans h.stopping
  notified := k.notified.trans h.notified
  remote := k.remote.trans h.remote
  generation := k.generation.trans h.generation
  queue := h.queue.trans k.queue

theorem Grow.kept {t : Strand N} (g : Grow cfg s t) : Kept s t := by
  have hposts : ∀ post, s.queue <+: s.queue ++ [post] := fun post => List.prefix_append _ _
  cases g with
  | capture | endWaits | turn => exact ⟨rfl,rfl,rfl,rfl,rfl,rfl,rfl,rfl,rfl,rfl,rfl,rfl,rfl,rfl,List.prefix_rfl⟩
  | expire session wait group hwait hgroup =>
    rw [expireSession_eq hwait hgroup]
    exact ⟨rfl,rfl,rfl,rfl,rfl,rfl,rfl,rfl,rfl,rfl,rfl,rfl,rfl,rfl,hposts _⟩
  | accept =>
    rw [admitted_eq _ _ _ _ _ _ _ (fun _ _ => rfl)]
    exact ⟨rfl,rfl,rfl,rfl,rfl,rfl,rfl,rfl,rfl,rfl,rfl,rfl,rfl,rfl,hposts _⟩
  | tryAdmit =>
    rw [admitted_eq _ _ _ _ _ _ _ (fun _ _ => rfl), tallyQueued_eq]
    exact ⟨rfl,rfl,rfl,rfl,rfl,rfl,rfl,rfl,rfl,rfl,rfl,rfl,rfl,rfl,hposts _⟩
  | refuseOversized => exact ⟨rfl,rfl,rfl,rfl,rfl,rfl,rfl,rfl,rfl,rfl,rfl,rfl,rfl,rfl,hposts _⟩

theorem Growth.kept {t : Strand N} (g : Growth cfg s t) : Kept s t := by
  induction g with
  | refl => exact .refl s
  | tail _ g ih => exact ih.trans g.kept

omit [CommRing N] in
theorem collect_self : s.collect s.channel = s := by
  simp [collect]

omit [CommRing N] in
theorem refusal_admits {data : List UInt8} {requireRemote : Bool} {expectedRun : Option ℕ}
    {destination : Option Endpoint} {session : Option ℕ}
    (hrefusal : s.channel.refusal data requireRemote expectedRun = none)
    (hremote : requireRemote = true ∨ destination.isSome = true) (hlive : s.channel.sessionEnded session = false)
    (hknown : ∀ i, session = some i → i < s.channel.writeWaits.length) (haddress : destination = none → session = none) :
    s.Admits data destination session := by
  obtain ⟨hsize,hadmission⟩ := Option.or_eq_none_iff.mp hrefusal
  unfold Channel.admissionRejection at hadmission
  split_ifs at hadmission with hstop hstarted hready
  push Not at hready
  obtain ⟨-,hopened,hclosed,herror,hend⟩ := hready
  refine ⟨by simpa using hopened,?_,?_,?_,hlive,hknown,haddress⟩
  · cases hstate : s.channel.state <;> simp_all [LinkState.terminal]
  · rintro rfl
    simp [validatePayloadSize] at hsize
  · rcases hremote with hremote | hremote
    · have hsome := hend hremote
      right
      simpa [Option.isSome_iff_ne_none] using hsome
    · exact .inl hremote

section Calls
variable {data : List UInt8} {storage : Storage} {destination : Option Endpoint} {session : Option ℕ}

theorem reservePlain_growth (hadmits : s.Admits data destination session) :
    Growth cfg s (s.collect (s.channel.reservePlain cfg data storage destination session).1) := by
  unfold Channel.reservePlain
  split
  · rename_i counters hroom
    exact (Grow.accept s data storage destination session counters hadmits hroom).growth
  · rw [collect_self]

theorem reserveCopy_growth (hadmits : s.Admits data destination session) (poolValid : Bool) :
    Growth cfg s (s.collect (s.channel.reserveCopy cfg data poolValid destination session).1) := by
  unfold Channel.reserveCopy
  split <;> exact reservePlain_growth hadmits

theorem writeOwned_growth (expectedRun : Option ℕ) :
    Growth cfg s (s.collect (s.channel.writeOwned cfg storage data expectedRun).1) := by
  unfold Channel.writeOwned
  split
  · rw [collect_self]
  · rename_i hrefusal
    split
    · have hpost : s.collect { s.channel with posted := s.channel.posted ++ [.oversized s.channel.generation] } =
          { s with queue := s.queue ++ [.write (.oversized s.channel.generation)] } := by
        simp [collect, Handler.item?]
      rw [hpost]
      exact (Grow.refuseOversized s).growth
    · exact reservePlain_growth (refusal_admits hrefusal (.inl rfl) rfl (by simp) (fun _ => rfl))

theorem reserveTry_cases (s : Strand N) (data : List UInt8) (storage : Storage) (destination : Option Endpoint)
    (session : Option ℕ) :
    s.channel.reserveTry cfg data storage destination session = (s.channel,.reject .wouldBlock) ∨
    ∃ counters, tryReserveWriteBytesLocked s.channel.counters s.channel.backpressureActive data.length cfg.bpHigh
        cfg.bpLimit = some (true,counters) ∧
      s.channel.reserveTry cfg data storage destination session =
        s.channel.accept counters data storage destination session .tryEnqueue := by
  unfold Channel.reserveTry
  split
  · exact .inl rfl
  · split
    · rename_i counters hroom
      exact .inr ⟨counters,hroom,rfl⟩
    · exact .inl rfl

theorem tryWriteOwned_growth (expectedRun : Option ℕ) :
    Growth cfg s (s.collect (s.channel.tryWriteOwned cfg storage data expectedRun).1) := by
  unfold Channel.tryWriteOwned
  split
  · rw [collect_self]
  · rename_i hrefusal
    have hadmits : s.Admits data none none := refusal_admits hrefusal (.inl rfl) rfl (by simp) (fun _ => rfl)
    rcases reserveTry_cases s data storage none none with heq | ⟨counters,hroom,heq⟩
    · rw [heq, collect_self]
    · rw [heq]
      exact (Grow.tryAdmit s data storage none none counters hadmits hroom).growth

/-- The bytes are noted for the session only after an admission. -/
theorem tryWriteTo_growth (expectedRun : Option ℕ) (peer : Endpoint)
    (hknown : ∀ i, session = some i → i < s.channel.writeWaits.length) :
    Growth cfg s (s.collect (s.channel.tryWriteTo cfg data peer expectedRun session).1) := by
  unfold Channel.tryWriteTo
  split
  · rw [collect_self]
  · rename_i hrefusal
    split
    · rw [collect_self]
    · rename_i hlive
      have hadmits : s.Admits data (some peer) session :=
        refusal_admits hrefusal (.inr rfl) (by simpa using hlive) hknown nofun
      dsimp only
      rcases reserveTry_cases s data .vector (some peer) session with heq | ⟨counters,hroom,heq⟩
      · rw [heq, if_neg nofun, collect_self]
      · have haccept : (s.channel.accept counters data .vector (some peer) session .tryEnqueue).2 = .accept := rfl
        have hgrow := Grow.tryAdmit s data .vector (some peer) session counters hadmits hroom
        rw [heq, if_pos haccept]
        cases session with
        | none => exact hgrow.growth
        | some i => exact hgrow.growth

theorem writeTo_growth (expectedRun : Option ℕ) (peer : Endpoint) (poolValid : Bool)
    (hknown : ∀ i, session = some i → i < s.channel.writeWaits.length) :
    Growth cfg s (s.collect (s.channel.writeTo cfg data peer expectedRun session poolValid).1) := by
  unfold Channel.writeTo
  split
  · rw [collect_self]
  · rename_i hrefusal
    split
    · rw [collect_self]
    · rename_i hlive
      have hadmits : s.Admits data (some peer) session :=
        refusal_admits hrefusal (.inr rfl) (by simpa using hlive) hknown nofun
      exact reserveCopy_growth hadmits poolValid

theorem writeCopy_growth (expectedRun : Option ℕ) (poolValid : Bool) :
    Growth cfg s (s.collect (s.channel.writeCopy cfg data expectedRun poolValid).1) := by
  unfold Channel.writeCopy
  split
  · rw [collect_self]
  · rename_i hrefusal
    exact reserveCopy_growth (refusal_admits hrefusal (.inl rfl) rfl (by simp) (fun _ => rfl)) poolValid

theorem tryWriteCopy_growth (expectedRun : Option ℕ) :
    Growth cfg s (s.collect (s.channel.tryWriteCopy cfg data expectedRun).1) := by
  unfold Channel.tryWriteCopy
  split
  · rw [collect_self]
  · exact tryWriteOwned_growth expectedRun

theorem write_growth (expectedRun : Option ℕ) (entry : Channel.Entry) (hknows : s.knows entry = true) :
    Growth cfg s (s.collect (s.channel.call cfg data expectedRun entry).1) := by
  have hknown : ∀ i, entrySession entry = some i → i < s.channel.writeWaits.length := by
    intro i hi
    unfold knows at hknows
    rw [hi] at hknows
    simpa using hknows
  cases entry with
  | copy poolValid => exact writeCopy_growth expectedRun poolValid
  | move => exact writeOwned_growth expectedRun
  | shared => exact writeOwned_growth expectedRun
  | tryCopy => exact tryWriteCopy_growth expectedRun
  | tryMove => exact tryWriteOwned_growth expectedRun
  | tryShared => exact tryWriteOwned_growth expectedRun
  | writeTo peer session poolValid => exact writeTo_growth expectedRun peer poolValid hknown
  | tryWriteTo peer session => exact tryWriteTo_growth expectedRun peer hknown

end Calls

theorem call_growth (op : CallOp) : Growth cfg s (s.call cfg op) := by
  cases op with
  | captureWriteWait requireRemote trackSession =>
    change Growth cfg s (s.captureWriteWait requireRemote trackSession)
    unfold captureWriteWait
    split
    · exact .refl
    · rename_i hadmission
      refine (Grow.capture s trackSession ?_).growth
      unfold Channel.admissionRejection at hadmission
      split_ifs at hadmission with hstop hstarted hready
      simp only [not_or] at hready
      simpa using hready.2.1
  | write data expectedRun entry =>
    change Growth cfg s (if s.knows entry then s.collect (s.channel.call cfg data expectedRun entry).1 else s)
    split
    · rename_i hknows
      exact write_growth expectedRun entry hknows
    · exact .refl
  | expireSession session =>
    change Growth cfg s (s.expireSession session)
    cases hwait : s.channel.writeWaits[session]? with
    | none =>
      unfold expireSession
      rw [hwait]
    | some wait =>
      cases hgroup : wait.accounting with
      | some group => exact (Grow.expire s session wait group hwait hgroup).growth
      | none =>
        unfold expireSession
        rw [hwait]
        dsimp only
        rw [hgroup]
        exact (Grow.endWaits s _ (forall₂_modify_end _ _ _)).growth
  | endWriteWait session reason => exact (Grow.endWaits s _ (forall₂_modify_end _ _ _)).growth
  | cancelWriteWaits => exact (Grow.endWaits s _ (forall₂_map_end _ _)).growth

theorem calls_growth (ops : List CallOp) : Growth cfg s (s.calls cfg ops) := by
  induction ops generalizing s with
  | nil => exact .refl
  | cons op ops ih => exact (call_growth op).trans ih

theorem turn_growth : Growth cfg s (s.turn cfg) := by
  unfold turn
  split
  · exact .refl
  · exact (Grow.turn s _).growth.trans (calls_growth _)

end Strand
end Wirestead.Transport.UdpChannel
