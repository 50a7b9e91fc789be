import Wirestead.Transport.UdpChannel.Counted

/-! # What becomes of an accepted datagram

The ledger and the queues of a channel are held against what the run has shown so far:
which datagrams were admitted and handed to the socket, and which sessions have expired.
-/
namespace Wirestead.Transport.UdpChannel
open Diagnostics Sizes TcpClient

def Event.session : Event → Option ℕ
  | .admitted handler => handler.item?.bind TxItem.session
  | .handed item => item.session
  | .expired _ => none

def Event.admitted? : Event → Option TxItem
  | .admitted handler => handler.item?
  | _ => none

def Event.handed? : Event → Option TxItem
  | .handed item => some item
  | _ => none

def admissions (events : List Event) : List TxItem := events.filterMap Event.admitted?

def handovers (events : List Event) : List TxItem := events.filterMap Event.handed?

@[simp] theorem admissions_append (events more : List Event) :
    admissions (events ++ more) = admissions events ++ admissions more := List.filterMap_append

@[simp] theorem handovers_append (events more : List Event) :
    handovers (events ++ more) = handovers events ++ handovers more := List.filterMap_append

/-- The datagrams that wait on the strand. -/
def posted (queue : List Post) : List TxItem := queue.filterMap Post.item?

@[simp] theorem posted_append (queue more : List Post) : posted (queue ++ more) = posted queue ++ posted more :=
  List.filterMap_append

/-- What a handler has taken from the front of `tx_`. -/
def Hand.front : Hand → List TxItem
  | .current item => [item]
  | _ => []

/-- What a handler has taken from the strand. -/
def Hand.back : Hand → List TxItem
  | .posted item => [item]
  | .tried item => [item]
  | _ => []

def Hand.sentItem : Hand → List TxItem
  | .sent item => [item]
  | _ => []

theorem posted_cons (post : Post) (rest : List Post) : posted (post :: rest) = post.hand.back ++ posted rest := by
  cases post with
  | write handler => cases handler <;> rfl
  | expire => rfl

@[simp] theorem posted_singleton (post : Post) : posted [post] = post.hand.back := by
  rw [posted_cons]
  exact List.append_nil _

theorem Post.hand_front (post : Post) : post.hand.front = [] ∧ post.hand.sentItem = [] := by
  cases post with
  | write handler => cases handler <;> exact ⟨rfl,rfl⟩
  | expire => exact ⟨rfl,rfl⟩

theorem Post.hand_expiring {post : Post} {i : ℕ} (h : post.hand = .expiring i) : ∃ g, post = .expire i g := by
  cases post with
  | write handler => cases handler <;> cases h
  | expire session generation =>
    cases h
    exact ⟨generation,rfl⟩

/-- The waits of the channel keep their groups, and one that has ended stays so. -/
structure Follows (waits waits' : List UdpWriteWait) : Prop where
  groups : waits'.map UdpWriteWait.accounting = waits.map UdpWriteWait.accounting
  ended : ∀ (i : ℕ) (w w' : UdpWriteWait), waits[i]? = some w → waits'[i]? = some w' →
    w.endedBy.isSome = true → w'.endedBy.isSome = true

namespace Follows
variable {waits waits' waits'' : List UdpWriteWait}

theorem refl (waits : List UdpWriteWait) : Follows waits waits :=
  ⟨rfl,fun _ _ _ h h' he => by rwa [Option.some_inj.mp (h.symm.trans h')] at he⟩

theorem length (h : Follows waits waits') : waits'.length = waits.length := by
  simpa using congrArg List.length h.groups

theorem get (h : Follows waits waits') {i : ℕ} {w : UdpWriteWait} (hw : waits[i]? = some w) :
    ∃ w', waits'[i]? = some w' ∧ w'.accounting = w.accounting := by
  have hg := congrArg (fun l => l[i]?) h.groups
  simp only [List.getElem?_map, hw, Option.map_some] at hg
  obtain ⟨w',hw',hacc⟩ := Option.map_eq_some_iff.mp hg
  exact ⟨w',hw',hacc⟩

theorem trans (h : Follows waits waits') (h' : Follows waits' waits'') : Follows waits waits'' := by
  refine ⟨h'.groups.trans h.groups,fun i w w'' hw hw'' he => ?_⟩
  obtain ⟨w',hw',-⟩ := h.get hw
  exact h'.ended i w' w'' hw' hw'' (h.ended i w w' hw hw' he)

theorem recount (waits : List UdpWriteWait) (f : ℕ → ℕ → ℕ) : Follows waits (recount waits f) := by
  constructor
  · apply List.ext_getElem?
    intro i
    rw [List.getElem?_map, List.getElem?_map, getElem?_recount]
    cases waits[i]? with
    | none => rfl
    | some w => cases hw : w.accounting <;> simp [hw]
  · intro i w w' hw hw' he
    rw [getElem?_recount, hw, Option.map_some, Option.some_inj] at hw'
    rw [← hw']
    split_ifs <;> exact he

theorem ends (hends : List.Forall₂ (fun w w' => w' = w ∨ ∃ reason, w' = UdpWriteWait.end w reason) waits waits') :
    Follows waits waits' := by
  have hend : ∀ (w : UdpWriteWait) reason, (w.end reason).accounting = w.accounting ∧
      (w.endedBy.isSome = true → (w.end reason).endedBy.isSome = true) := by
    intro w reason
    unfold UdpWriteWait.end
    split_ifs <;> simp_all
  induction hends with
  | nil => exact refl []
  | @cons w w' ws ws' hw _ ih =>
    have hhead : w'.accounting = w.accounting ∧ (w.endedBy.isSome = true → w'.endedBy.isSome = true) := by
      rcases hw with rfl | ⟨reason,rfl⟩
      · exact ⟨rfl,id⟩
      · exact hend w reason
    refine ⟨by simp [hhead.1, ih.groups],fun i v v' hv hv' he => ?_⟩
    cases i with
    | zero =>
      simp only [List.getElem?_cons_zero, Option.some_inj] at hv hv'
      subst hv hv'
      exact hhead.2 he
    | succ i => exact ih.ended i v v' hv hv' he

end Follows

namespace Strand
variable {N : Type*} {cfg : Config} {s t : Strand N} {h k : Hand}

/-- The datagrams that are to be handed over, in the order of the queues. -/
def waiting (s : Strand N) (h : Hand) : List TxItem :=
  h.front ++ s.channel.tx ++ s.channel.pending ++ h.back ++ posted s.queue

/-- The requests of the datagrams, and what they owe to the sessions. -/
structure Tracked (s : Strand N) (h : Hand) : Prop where
  valid : s.channel.ledger.Valid
  groups : ∀ (i : ℕ) (w : UdpWriteWait), s.channel.writeWaits[i]? = some w → w.accounting = none ∨ w.accounting = some i
  idle : ∀ item ∈ s.waiting h, ∀ r, s.channel.ledger.request? item.request = some r →
    r.active = false ∧ r.group = s.channel.accounting item.session
  issued : ∀ item ∈ admissions s.events, item.request ≤ s.channel.ledger.nextId
  source : ∀ item, item ∈ s.waiting h ∨ item ∈ handovers s.events → item ∈ admissions s.events
  sent : ∀ item, item ∈ s.channel.sending ∨ item ∈ h.sentItem → item ∈ handovers s.events
  routable : ∀ item ∈ s.waiting h, item.destination = none → s.channel.remoteEndpoint.isSome = true
  ended : ∀ i, .expired i ∈ s.events →
    ∃ w, s.channel.writeWaits[i]? = some w ∧ w.accounting = some i ∧ w.endedBy.isSome = true
  dead : ∀ i, .expired i ∈ s.events → ∀ item ∈ s.waiting h, item.session = some i →
    s.channel.ledger.request? item.request = none
  posts : ∀ i g, .expire i g ∈ s.queue → .expired i ∈ s.events
  expiring : ∀ i, h = .expiring i → .expired i ∈ s.events
  live : s.channel.opened = true → ∀ item ∈ s.waiting h, s.channel.ledger.request? item.request = none →
    ∃ i, item.session = some i ∧ .expired i ∈ s.events
  delivered : s.channel.opened = true → ∀ item ∈ admissions s.events,
    item ∈ s.waiting h ∨ item ∈ handovers s.events ∨ ∃ i, item.session = some i ∧ .expired i ∈ s.events
  quiet : s.events.Pairwise (fun a b => ∀ i, a = .expired i → b.session ≠ some i)
  increasing : (admissions s.events).Pairwise (fun a b => a.request < b.request)

theorem accounting_follows (hw : Follows s.channel.writeWaits t.channel.writeWaits) (session : Option ℕ) :
    t.channel.accounting session = s.channel.accounting session := by
  cases session with
  | none => rfl
  | some i =>
    have hg := congrArg (fun l => l[i]?) hw.groups
    simp only [List.getElem?_map] at hg
    unfold Channel.accounting
    rw [Option.bind_some, Option.bind_some]
    cases hs : s.channel.writeWaits[i]? with
    | none => simp_all
    | some w =>
      rw [hs] at hg
      obtain ⟨w',hw',hacc⟩ := Option.map_eq_some_iff.mp hg
      rw [hw', Option.bind_some, Option.bind_some, hacc]

/-- A session that has expired is still there, with its group, and has ended. -/
theorem Tracked.ended_follows (ht : s.Tracked h) (hw : Follows s.channel.writeWaits t.channel.writeWaits) {i : ℕ}
    (he : .expired i ∈ s.events) :
    ∃ w, t.channel.writeWaits[i]? = some w ∧ w.accounting = some i ∧ w.endedBy.isSome = true := by
  obtain ⟨w,hget,hacc,hend⟩ := ht.ended i he
  obtain ⟨w',hget',hacc'⟩ := hw.get hget
  exact ⟨w',hget',hacc'.trans hacc,hw.ended i w w' hget hget' hend⟩

theorem Tracked.groups_follows (ht : s.Tracked h) (hw : Follows s.channel.writeWaits t.channel.writeWaits) (i : ℕ)
    (w' : UdpWriteWait) (hget' : t.channel.writeWaits[i]? = some w') :
    w'.accounting = none ∨ w'.accounting = some i := by
  obtain ⟨hi,-⟩ := List.getElem?_eq_some_iff.mp hget'
  rw [hw.length] at hi
  obtain ⟨w'',hget'',hacc⟩ := hw.get (List.getElem?_eq_getElem hi)
  rw [hget', Option.some_inj] at hget''
  rw [hget'', hacc]
  exact ht.groups i _ (List.getElem?_eq_getElem hi)

/-- Whatever happens next is not about a session that has expired. -/
theorem Tracked.quiet_snoc (ht : s.Tracked h) {event : Event}
    (hlive : ∀ i, event.session = some i → .expired i ∉ s.events) :
    (s.events ++ [event]).Pairwise (fun a b => ∀ i, a = .expired i → b.session ≠ some i) := by
  rw [List.pairwise_append]
  refine ⟨ht.quiet,List.pairwise_singleton _ _,?_⟩
  rintro a ha b hb i rfl hs
  rw [List.mem_singleton.mp hb] at hs
  exact hlive i hs ha

/-- Datagrams that only change their place, or are dropped after their session expired. -/
theorem Tracked.shuffle (ht : s.Tracked h) (hw : Follows s.channel.writeWaits t.channel.writeWaits)
    (hledger : t.channel.ledger = s.channel.ledger) (hevents : t.events = s.events)
    (hopened : t.channel.opened = s.channel.opened) (hremote : t.channel.remoteEndpoint = s.channel.remoteEndpoint)
    (hposts : ∀ i g, .expire i g ∈ t.queue → .expire i g ∈ s.queue)
    (hexpiring : ∀ i, k = .expiring i → .expired i ∈ s.events)
    (hsent : ∀ item, item ∈ t.channel.sending ∨ item ∈ k.sentItem → item ∈ s.channel.sending ∨ item ∈ h.sentItem)
    (hsub : ∀ item ∈ t.waiting k, item ∈ s.waiting h)
    (hkept : s.channel.opened = true → ∀ item ∈ s.waiting h,
      item ∈ t.waiting k ∨ ∃ i, item.session = some i ∧ .expired i ∈ s.events) : t.Tracked k where
  valid := hledger ▸ ht.valid
  groups := ht.groups_follows hw
  idle := by
    intro item hi r hr
    rw [hledger] at hr
    rw [accounting_follows hw]
    exact ht.idle item (hsub item hi) r hr
  issued := by
    rw [hevents, hledger]
    exact ht.issued
  source := by
    rw [hevents]
    exact fun item hi => ht.source item (hi.imp_left (hsub item))
  sent := by
    rw [hevents]
    exact fun item hi => ht.sent item (hsent item hi)
  routable := by
    rw [hremote]
    exact fun item hi => ht.routable item (hsub item hi)
  ended := by
    rw [hevents]
    exact fun i he => ht.ended_follows hw he
  dead := by
    rw [hevents, hledger]
    exact fun i he item hi => ht.dead i he item (hsub item hi)
  posts := by
    rw [hevents]
    exact fun i g hp => ht.posts i g (hposts i g hp)
  expiring := by
    rw [hevents]
    exact hexpiring
  live := by
    rw [hevents, hledger, hopened]
    exact fun ho item hi => ht.live ho item (hsub item hi)
  delivered := by
    rw [hevents, hopened]
    intro ho item hi
    rcases ht.delivered ho item hi with hwait | hrest
    · exact (hkept ho item hwait).imp_right .inr
    · exact .inr hrest
  quiet := hevents ▸ ht.quiet
  increasing := hevents ▸ ht.increasing

/-- A failure of the socket ends every request; nothing is promised any more. -/
theorem Tracked.lose (ht : s.Tracked h) (hw : Follows s.channel.writeWaits t.channel.writeWaits)
    (hvalid : t.channel.ledger.Valid) (hnone : ∀ id, t.channel.ledger.request? id = none)
    (hnext : t.channel.ledger.nextId = s.channel.ledger.nextId) (hevents : t.events = s.events)
    (hopened : t.channel.opened = false) (hremote : t.channel.remoteEndpoint = s.channel.remoteEndpoint)
    (hqueue : t.queue = s.queue) (hexpiring : ∀ i, k = .expiring i → .expired i ∈ s.events)
    (hsent : ∀ item, item ∈ t.channel.sending ∨ item ∈ k.sentItem → item ∈ s.channel.sending ∨ item ∈ h.sentItem)
    (hsub : ∀ item ∈ t.waiting k, item ∈ s.waiting h) : t.Tracked k where
  valid := hvalid
  groups := ht.groups_follows hw
  idle := by
    intro item _ r hr
    rw [hnone] at hr
    cases hr
  issued := by
    rw [hevents, hnext]
    exact ht.issued
  source := by
    rw [hevents]
    exact fun item hi => ht.source item (hi.imp_left (hsub item))
  sent := by
    rw [hevents]
    exact fun item hi => ht.sent item (hsent item hi)
  routable := by
    rw [hremote]
    exact fun item hi => ht.routable item (hsub item hi)
  ended := by
    rw [hevents]
    exact fun i he => ht.ended_follows hw he
  dead := fun _ _ item _ _ => hnone _
  posts := by
    rw [hevents, hqueue]
    exact ht.posts
  expiring := by
    rw [hevents]
    exact hexpiring
  live := by
    intro ho
    rw [hopened] at ho
    cases ho
  delivered := by
    intro ho
    rw [hopened] at ho
    cases ho
  quiet := hevents ▸ ht.quiet
  increasing := hevents ▸ ht.increasing

/-- What is waiting without a request belongs to a session that has expired. -/
theorem Tracked.expired_of_dead (ht : s.Tracked h) (hopen : s.channel.opened = true) {item : TxItem}
    (hi : item ∈ s.waiting h) (hdead : s.channel.ledger.contains item.request = false) :
    ∃ i, item.session = some i ∧ .expired i ∈ s.events := by
  refine ht.live hopen item hi ?_
  rw [ht.valid.contains_request] at hdead
  simpa using hdead

theorem mem_items_of_waiting {item : TxItem} (hi : item ∈ s.waiting h) : item ∈ s.items h := by
  have hposted : ∀ queue : List Post, item ∈ posted queue → item ∈ plains queue ∨ item ∈ tries queue := by
    intro queue hq
    obtain ⟨post,hpost,heq⟩ := List.mem_filterMap.mp hq
    cases post with
    | write handler =>
      cases handler with
      | enqueue i g => exact .inl (List.mem_filterMap.mpr ⟨_,hpost,heq⟩)
      | tryEnqueue i g => exact .inr (List.mem_filterMap.mpr ⟨_,hpost,heq⟩)
      | oversized g => cases heq
    | expire => cases heq
  have hhand : item ∈ h.front ∨ item ∈ h.back → item ∈ h.counted ∨ item ∈ h.reserved := by
    cases h <;> simp [Hand.front, Hand.back, Hand.counted, Hand.reserved]
  simp only [waiting, items, held, List.mem_append] at hi ⊢
  have hq := hposted s.queue
  tauto

/-- A new session has no datagrams. -/
theorem Tracked.capture (ht : s.Tracked h) (hk : s.Known h) (w : UdpWriteWait)
    (hw : w.accounting = none ∨ w.accounting = some s.channel.writeWaits.length) :
    Tracked { s with channel.writeWaits := s.channel.writeWaits ++ [w] } h where
  valid := ht.valid
  groups := by
    intro i v hv
    dsimp only at hv
    rw [List.getElem?_append] at hv
    split_ifs at hv with hi
    · exact ht.groups i v hv
    · rw [List.getElem?_singleton] at hv
      split_ifs at hv with hzero
      rw [Option.some_inj] at hv
      have hlast : i = s.channel.writeWaits.length := by omega
      rw [← hv, hlast]
      exact hw
  idle := by
    intro item hi r hr
    obtain ⟨hidle,hgroup⟩ := ht.idle item hi r hr
    refine ⟨hidle,hgroup.trans ?_⟩
    cases hs : item.session with
    | none => rfl
    | some i =>
      have hlt := hk item (mem_items_of_waiting hi) i hs
      simp only [Channel.accounting, Option.bind_some]
      rw [List.getElem?_append_left hlt]
  issued := ht.issued
  source := ht.source
  sent := ht.sent
  routable := ht.routable
  ended := by
    intro i he
    obtain ⟨v,hv,hrest⟩ := ht.ended i he
    refine ⟨v,?_,hrest⟩
    dsimp only
    rw [List.getElem?_append_left (List.getElem?_eq_some_iff.mp hv).1]
    exact hv
  dead := ht.dead
  posts := ht.posts
  expiring := ht.expiring
  live := ht.live
  delivered := ht.delivered
  quiet := ht.quiet
  increasing := ht.increasing

/-- An admitted datagram is of a session that has not expired. -/
theorem Tracked.not_expired (ht : s.Tracked h) {data : List UInt8} {destination : Option Endpoint} {session : Option ℕ}
    (hadmits : s.Admits data destination session) {i : ℕ} (hs : session = some i) : .expired i ∉ s.events := by
  intro he
  obtain ⟨w,hw,-,hend⟩ := ht.ended i he
  have hlive := hadmits.live
  subst hs
  unfold Channel.sessionEnded at hlive
  rw [Option.bind_some, hw] at hlive
  simp [hend] at hlive

/-- A request waits for a session exactly when its datagram is of the session. -/
theorem Tracked.waits_iff (ht : s.Tracked h) {group : ℕ} (hgroup : s.channel.accounting (some group) = some group)
    {item : TxItem} (hi : item ∈ s.waiting h) {r : Request} (hr : s.channel.ledger.request? item.request = some r) :
    Ledger.waits group r = true ↔ item.session = some group := by
  obtain ⟨hidle,hg⟩ := ht.idle item hi r hr
  unfold Ledger.waits
  rw [hidle, hg]
  constructor
  · intro hwaits
    simp only [Bool.not_false, Bool.and_true, decide_eq_true_eq] at hwaits
    cases hs : item.session with
    | none =>
      rw [hs] at hwaits
      cases hwaits
    | some i =>
      rw [hs, Channel.accounting, Option.bind_some] at hwaits
      obtain ⟨w,hget,hacc⟩ := Option.bind_eq_some_iff.mp hwaits
      rcases ht.groups i w hget with hnone | hsome
      · rw [hnone] at hacc
        cases hacc
      · rw [← hsome, hacc]
  · intro hs
    rw [hs, hgroup]
    simp

/-- No two datagrams that were handed over or are waiting have one request. -/
def Distinct (s : Strand N) (h : Hand) : Prop :=
  (handovers s.events ++ s.waiting h).Pairwise (fun a b => a.request ≠ b.request)

/-- A datagram with a live request goes to the socket; its session has not expired. -/
theorem Tracked.handOver {item : TxItem} (ht : s.Tracked (.current item)) (hd : s.Distinct (.current item))
    (hlive : s.channel.ledger.contains item.request = true)
    (hledger : t.channel.ledger = (s.channel.ledger.beginLocked item.request).1)
    (hevents : t.events = s.events ++ [.handed item]) (hwaits : t.channel.writeWaits = s.channel.writeWaits)
    (hopened : t.channel.opened = s.channel.opened) (hremote : t.channel.remoteEndpoint = s.channel.remoteEndpoint)
    (hqueue : t.queue = s.queue) (hsending : t.channel.sending = [item])
    (hwaiting : s.waiting (.current item) = item :: t.waiting .empty) : t.Tracked .empty := by
  obtain ⟨hvalid,hnext,-,hrequests⟩ := ht.valid.beginLocked_request item.request
  rw [← hledger] at hvalid hnext hrequests
  have hw : Follows s.channel.writeWaits t.channel.writeWaits := hwaits ▸ .refl _
  have hadmissions : admissions t.events = admissions s.events := by
    simp [hevents, admissions, Event.admitted?]
  have hhandovers : handovers t.events = handovers s.events ++ [item] := by
    simp [hevents, handovers, Event.handed?]
  have hexpired : ∀ i, .expired i ∈ t.events ↔ .expired i ∈ s.events := by
    simp [hevents]
  have hself : item ∈ s.waiting (.current item) := by
    rw [hwaiting]
    exact List.mem_cons_self
  have hsub : ∀ i ∈ t.waiting .empty, i ∈ s.waiting (.current item) := by
    rw [hwaiting]
    exact fun i hi => List.mem_cons_of_mem _ hi
  have hother : ∀ i ∈ t.waiting .empty, t.channel.ledger.request? i.request = s.channel.ledger.request? i.request := by
    intro i hi
    have hne : item.request ≠ i.request := by
      unfold Distinct at hd
      rw [hwaiting, List.pairwise_append, List.pairwise_cons] at hd
      exact hd.2.1.1 i hi
    rw [hrequests, if_neg (Ne.symm hne)]
  have hfresh : ∀ i, item.session = some i → .expired i ∉ s.events := by
    intro i hs he
    rw [ht.valid.contains_request, ht.dead i he item hself hs] at hlive
    cases hlive
  exact
    { valid := hvalid
      groups := ht.groups_follows hw
      idle := by
        intro i hi r hr
        rw [hother i hi] at hr
        rw [accounting_follows hw]
        exact ht.idle i (hsub i hi) r hr
      issued := by
        rw [hadmissions, hnext]
        exact ht.issued
      source := by
        rw [hadmissions, hhandovers]
        rintro i (hi | hi)
        · exact ht.source i (.inl (hsub i hi))
        · rcases List.mem_append.mp hi with hi | hi
          · exact ht.source i (.inr hi)
          · rw [List.mem_singleton.mp hi]
            exact ht.source item (.inl hself)
      sent := by
        rw [hhandovers, hsending]
        rintro i (hi | hi)
        · exact List.mem_append_right _ hi
        · cases hi
      routable := by
        rw [hremote]
        exact fun i hi => ht.routable i (hsub i hi)
      ended := fun i he => ht.ended_follows hw ((hexpired i).mp he)
      dead := by
        intro i he j hj hs
        rw [hother j hj]
        exact ht.dead i ((hexpired i).mp he) j (hsub j hj) hs
      posts := by
        rw [hqueue]
        exact fun i g hp => (hexpired i).mpr (ht.posts i g hp)
      expiring := nofun
      live := by
        rw [hopened]
        intro ho i hi hr
        rw [hother i hi] at hr
        obtain ⟨j,hs,he⟩ := ht.live ho i (hsub i hi) hr
        exact ⟨j,hs,(hexpired j).mpr he⟩
      delivered := by
        rw [hopened, hadmissions, hhandovers]
        intro ho i hi
        rcases ht.delivered ho i hi with hwait | hhand | ⟨j,hs,he⟩
        · rw [hwaiting] at hwait
          rcases List.mem_cons.mp hwait with rfl | hwait
          · exact .inr (.inl (List.mem_append_right _ List.mem_cons_self))
          · exact .inl hwait
        · exact .inr (.inl (List.mem_append_left _ hhand))
        · exact .inr (.inr ⟨j,hs,(hexpired j).mpr he⟩)
      quiet := by
        rw [hevents]
        exact ht.quiet_snoc hfresh
      increasing := by
        rw [hadmissions]
        exact ht.increasing }

/-- The hard limit refuses no reservation that a handler routes. -/
theorem Bounded.not_refused {item : TxItem} (hb : s.Bounded cfg (.posted item)) :
    decideEnqueue s.channel.counters.queueBytes s.channel.counters.pendingBytes s.channel.backpressureActive item.size
      cfg.bpLimit ≠ some .rejected := by
  have hinflight := hb.inflight
  have hwithin := hb.within
  simp only [Hand.reserved, bytes_cons, bytes_nil] at hinflight
  unfold Counters.total at hwithin
  rw [decideEnqueue_eq, if_neg (by omega)]
  split_ifs <;> simp

/-- Datagrams change hands, and the same ones wait. -/
theorem Tracked.rehand (ht : s.Tracked h) (hw : Follows s.channel.writeWaits t.channel.writeWaits)
    (hledger : t.channel.ledger = s.channel.ledger) (hevents : t.events = s.events)
    (hopened : t.channel.opened = s.channel.opened) (hremote : t.channel.remoteEndpoint = s.channel.remoteEndpoint)
    (hposts : ∀ i g, .expire i g ∈ t.queue → .expire i g ∈ s.queue)
    (hexpiring : ∀ i, k = .expiring i → .expired i ∈ s.events)
    (hsent : ∀ item, item ∈ t.channel.sending ∨ item ∈ k.sentItem → item ∈ s.channel.sending ∨ item ∈ h.sentItem)
    (hwaiting : ∀ item, item ∈ t.waiting k ↔ item ∈ s.waiting h) : t.Tracked k :=
  ht.shuffle hw hledger hevents hopened hremote hposts hexpiring hsent (fun item hi => (hwaiting item).mp hi)
    (fun _ item hi => .inl ((hwaiting item).mpr hi))

/-- A datagram is dropped: while the channel is up, only when its request has ended. -/
theorem Tracked.drop {item : TxItem} (ht : s.Tracked h) (hw : Follows s.channel.writeWaits t.channel.writeWaits)
    (hledger : t.channel.ledger = s.channel.ledger) (hevents : t.events = s.events)
    (hopened : t.channel.opened = s.channel.opened) (hremote : t.channel.remoteEndpoint = s.channel.remoteEndpoint)
    (hqueue : t.queue = s.queue) (hexpiring : ∀ i, k = .expiring i → .expired i ∈ s.events)
    (hsent : ∀ item, item ∈ t.channel.sending ∨ item ∈ k.sentItem → item ∈ s.channel.sending ∨ item ∈ h.sentItem)
    (hwaiting : ∀ i, i ∈ s.waiting h ↔ i ∈ t.waiting k ∨ i = item)
    (hgone : s.channel.opened = true → s.channel.ledger.contains item.request = false) : t.Tracked k := by
  refine ht.shuffle hw hledger hevents hopened hremote (fun i g hp => hqueue ▸ hp) hexpiring hsent
    (fun i hi => (hwaiting i).mpr (.inl hi)) (fun ho i hi => ?_)
  rcases (hwaiting i).mp hi with hi | rfl
  · exact .inl hi
  · exact .inr (ht.expired_of_dead ho hi (hgone ho))

theorem Tracked.take (ht : s.Tracked .empty) {post : Post} {rest : List Post} (hqueue : s.queue = post :: rest) :
    Tracked { s with queue := rest } post.hand := by
  obtain ⟨hfront,hsent⟩ := post.hand_front
  refine ht.rehand (.refl _) rfl rfl rfl rfl ?_ ?_ ?_ (fun item => ?_)
  · intro i g hp
    rw [hqueue]
    exact List.mem_cons_of_mem _ hp
  · intro i hi
    obtain ⟨g,rfl⟩ := Post.hand_expiring hi
    exact ht.posts i g (by rw [hqueue]; exact List.mem_cons_self)
  · rw [hsent]
    exact fun item hi => hi.imp_right nofun
  · have hempty : Hand.empty.front = [] ∧ Hand.empty.back = [] := ⟨rfl,rfl⟩
    simp only [waiting, hqueue, posted_cons, hfront, hempty.1, hempty.2, List.mem_append]
    tauto

theorem Tracked.takeSent (ht : s.Tracked .empty) {item : TxItem} {rest : List TxItem}
    (hsending : s.channel.sending = item :: rest) : Tracked { s with channel.sending := rest } (.sent item) := by
  refine ht.rehand (.refl _) rfl rfl rfl rfl (fun _ _ => id) nofun ?_ (fun _ => Iff.rfl)
  intro i hi
  rw [hsending]
  simp only [Hand.sentItem, List.mem_cons] at hi ⊢
  tauto

theorem Tracked.park {item : TxItem} (ht : s.Tracked (.posted item)) : (s.parkedWith item).Tracked .empty := by
  rw [parkedWith_eq]
  refine ht.rehand (.refl _) rfl rfl rfl rfl (fun _ _ => id) nofun (fun _ => id) (fun i => ?_)
  simp [waiting, Hand.front, Hand.back]

theorem Tracked.enqueue {item : TxItem} (ht : s.Tracked (.posted item)) : (s.queuedWith item).Tracked .empty := by
  rw [queuedWith_eq]
  have hw := Follows.recount s.channel.writeWaits (fun i q => if item.session = some i then q + item.size else q)
  refine ht.rehand hw rfl rfl rfl rfl (fun _ _ => id) nofun (fun _ => id) (fun i => ?_)
  simp [waiting, Hand.front, Hand.back]
  tauto

theorem Tracked.enqueueTried {item : TxItem} (ht : s.Tracked (.tried item)) :
    Tracked { s with channel.tx := s.channel.tx ++ [item] } .empty := by
  refine ht.rehand (.refl _) rfl rfl rfl rfl (fun _ _ => id) nofun (fun _ => id) (fun i => ?_)
  simp [waiting, Hand.front, Hand.back]
  tauto

theorem Tracked.relieve (ht : s.Tracked h) : s.relieved.Tracked h := by
  rw [relieved_eq]
  have hw := Follows.recount s.channel.writeWaits (fun i q => q + load i s.channel.pending)
  refine ht.rehand hw rfl rfl rfl rfl (fun _ _ => id) ht.expiring (fun _ => id) (fun i => ?_)
  simp [waiting]

theorem Tracked.pick (ht : s.Tracked .empty) {item : TxItem} {rest : List TxItem} (htx : s.channel.tx = item :: rest) :
    Tracked { s with channel.tx := rest } (.current item) := by
  refine ht.rehand (.refl _) rfl rfl rfl rfl (fun _ _ => id) nofun (fun _ => id) (fun i => ?_)
  simp [waiting, Hand.front, Hand.back, htx]

/-- The handler of a plain write finds the channel closed, or its request ended. -/
theorem Tracked.forget {item : TxItem} (ht : s.Tracked (.posted item)) (counters : Counters)
    (hgone : s.channel.opened = true → s.channel.ledger.contains item.request = false) :
    Tracked { s with channel.counters := counters } .empty := by
  refine ht.drop (.refl _) rfl rfl rfl rfl rfl nofun (fun _ hi => hi.imp_right nofun) (fun i => ?_) hgone
  simp [waiting, Hand.front, Hand.back]
  tauto

/-- A datagram that a handler holds is dropped. -/
theorem Tracked.dropHeld {item : TxItem} (ht : s.Tracked h) (hh : h = .tried item ∨ h = .current item)
    (hgone : s.channel.opened = true → s.channel.ledger.contains item.request = false) :
    (s.dropQueued item).Tracked .empty := by
  rw [dropQueued_eq]
  have hw := Follows.recount s.channel.writeWaits (fun i q => q - load i [item])
  refine ht.drop hw rfl rfl rfl rfl rfl nofun (fun _ hi => hi.imp_right nofun) (fun i => ?_) hgone
  rcases hh with rfl | rfl
  · simp [waiting, Hand.front, Hand.back]
    tauto
  · simp [waiting, Hand.front, Hand.back]
    tauto

theorem Tracked.dropDead (ht : s.Tracked h) {item : TxItem} {rest : List TxItem} (htx : s.channel.tx = item :: rest)
    (hdead : s.channel.ledger.contains item.request = false) :
    (Strand.dropQueued { s with channel.tx := rest } item).Tracked h := by
  rw [dropQueued_eq]
  have hw := Follows.recount s.channel.writeWaits (fun i q => q - load i [item])
  refine ht.drop hw rfl rfl rfl rfl rfl ht.expiring (fun _ => id) (fun i => ?_) (fun _ => hdead)
  simp only [waiting, htx, List.mem_append, List.mem_cons]
  tauto

/-- The datagrams of a session leave after it has expired. -/
theorem Tracked.discard {session : ℕ} (ht : s.Tracked (.expiring session)) :
    (s.discardSessionQueue session).Tracked .empty := by
  rw [discardSessionQueue_eq]
  have hw := Follows.recount s.channel.writeWaits
    (fun i q => q - load i (s.channel.tx.filter (·.session = some session)))
  refine ht.shuffle hw rfl rfl rfl rfl (fun _ _ => id) nofun (fun _ => id) ?_ ?_
  · intro i hi
    simp [waiting, Hand.front, Hand.back] at hi ⊢
    tauto
  · intro _ i hi
    by_cases hs : i.session = some session
    · exact .inr ⟨session,hs,ht.expiring session rfl⟩
    · left
      simp [waiting, Hand.front, Hand.back, hs] at hi ⊢
      exact hi

/-- Nothing is promised of a channel that has failed. -/
theorem Tracked.clear (ht : s.Tracked h) (ho : s.channel.opened = false) : s.cleared.Tracked h := by
  rw [cleared_eq]
  have hw := Follows.recount s.channel.writeWaits (fun i q => q - load i s.channel.tx)
  refine ht.shuffle hw rfl rfl rfl rfl (fun _ _ => id) ht.expiring (fun _ => id) ?_ ?_
  · intro i hi
    simp [waiting] at hi ⊢
    tauto
  · intro hopen
    rw [ho] at hopen
    cases hopen

variable [CommRing N]

/-- The handler of an admitted datagram is posted. -/
theorem Tracked.accept (ht : s.Tracked h) (hw : Follows s.channel.writeWaits t.channel.writeWaits) {data : List UInt8}
    {storage : Storage} {destination : Option Endpoint} {session : Option ℕ} {handler : Handler}
    (hadmits : s.Admits data destination session)
    (hitem : handler.item? = some (s.newItem data storage destination session))
    (hledger : t.channel.ledger = (s.channel.ledger.admitRequest data.length (s.channel.accounting session)).1)
    (hevents : t.events = s.events ++ [.admitted handler]) (hqueue : t.queue = s.queue ++ [.write handler])
    (hkept : Kept s t) : t.Tracked h := by
  obtain ⟨hvalid,-,hnext,-⟩ := ht.valid.admitRequest_live data.length (s.channel.accounting session)
  obtain ⟨epoch,hrequests⟩ := ht.valid.admitRequest_request data.length (s.channel.accounting session)
  rw [← hledger] at hvalid hnext hrequests
  set item := s.newItem data storage destination session with hnew
  have hwaiting : t.waiting h = s.waiting h ++ [item] := by
    simp [waiting, hkept.tx, hkept.pending, hqueue, posted, Post.item?, hitem]
  have hadmissions : admissions t.events = admissions s.events ++ [item] := by
    simp [hevents, admissions, Event.admitted?, hitem]
  have hhandovers : handovers t.events = handovers s.events := by
    simp [hevents, handovers, Event.handed?]
  have hexpired : ∀ i, .expired i ∈ t.events ↔ .expired i ∈ s.events := by
    simp [hevents]
  have hold : ∀ i ∈ admissions s.events, t.channel.ledger.request? i.request = s.channel.ledger.request? i.request := by
    intro i hi
    have hle := ht.issued i hi
    rw [hrequests, if_neg (by omega)]
  have hself : t.channel.ledger.request? item.request = some ⟨data.length,epoch,false,s.channel.accounting session⟩ := by
    rw [hrequests]
    exact if_pos rfl
  have hfresh : ∀ i, item.session = some i → .expired i ∉ s.events := fun i hs => ht.not_expired hadmits hs
  -- the datagrams that were there, and the new one
  have hcases : ∀ {p : TxItem → Prop}, (∀ i ∈ s.waiting h, p i) → p item → ∀ i ∈ t.waiting h, p i := by
    intro p hp hpi i hi
    rw [hwaiting] at hi
    rcases List.mem_append.mp hi with hi | hi
    · exact hp i hi
    · rwa [List.mem_singleton.mp hi]
  have hsource : ∀ i ∈ s.waiting h, i ∈ admissions s.events := fun i hi => ht.source i (.inl hi)
  exact
    { valid := hvalid
      groups := ht.groups_follows hw
      idle := hcases (fun i hi r hr => by
          rw [hold i (hsource i hi)] at hr
          rw [accounting_follows hw]
          exact ht.idle i hi r hr) (fun r hr => by
          rw [hself, Option.some_inj] at hr
          rw [accounting_follows hw, ← hr]
          exact ⟨rfl,rfl⟩)
      issued := by
        rw [hadmissions, hnext]
        intro i hi
        rcases List.mem_append.mp hi with hi | hi
        · exact (ht.issued i hi).trans (Nat.le_succ _)
        · rw [List.mem_singleton.mp hi]
          exact le_rfl
      source := by
        rw [hadmissions, hhandovers, hwaiting]
        intro i hi
        rw [List.mem_append] at hi ⊢
        rcases hi with (hi | hi) | hi
        · exact .inl (ht.source i (.inl hi))
        · exact .inr hi
        · exact .inl (ht.source i (.inr hi))
      sent := by
        rw [hkept.sending, hhandovers]
        exact ht.sent
      routable := by
        rw [hkept.remote]
        refine hcases ht.routable (fun hnone => ?_)
        rcases hadmits.routable with hsome | hsome
        · have hdest : destination = none := hnone
          rw [hdest] at hsome
          cases hsome
        · exact hsome
      ended := fun i he => ht.ended_follows hw ((hexpired i).mp he)
      dead := by
        intro i he
        rw [hexpired] at he
        refine hcases (fun j hj hs => ?_) (fun hs => absurd he (hfresh i hs))
        rw [hold j (hsource j hj)]
        exact ht.dead i he j hj hs
      posts := by
        intro i g hp
        rw [hqueue] at hp
        rw [hexpired]
        exact ht.posts i g (by simpa using hp)
      expiring := fun i hi => (hexpired i).mpr (ht.expiring i hi)
      live := by
        intro ho
        rw [hkept.opened] at ho
        refine hcases (fun j hj hr => ?_) (fun hr => ?_)
        · rw [hold j (hsource j hj)] at hr
          obtain ⟨i,hs,he⟩ := ht.live ho j hj hr
          exact ⟨i,hs,(hexpired i).mpr he⟩
        · rw [hself] at hr
          cases hr
      delivered := by
        intro ho i hi
        rw [hkept.opened] at ho
        rw [hwaiting, hhandovers]
        rw [hadmissions] at hi
        rcases List.mem_append.mp hi with hi | hi
        · rcases ht.delivered ho i hi with hwait | hhand | ⟨j,hs,he⟩
          · exact .inl (List.mem_append_left _ hwait)
          · exact .inr (.inl hhand)
          · exact .inr (.inr ⟨j,hs,(hexpired j).mpr he⟩)
        · exact .inl (List.mem_append_right _ hi)
      quiet := by
        rw [hevents]
        refine ht.quiet_snoc (fun i hs => ?_)
        rw [Event.session, hitem] at hs
        exact hfresh i hs
      increasing := by
        rw [hadmissions, List.pairwise_append]
        refine ⟨ht.increasing,List.pairwise_singleton _ _,?_⟩
        intro a ha b hb
        rw [List.mem_singleton.mp hb]
        exact Nat.lt_succ_of_le (ht.issued a ha) }

/-- The requests that a session has waiting end with it, and no others. -/
theorem Tracked.expire (ht : s.Tracked h) {session : ℕ} {wait : UdpWriteWait}
    (hwait : s.channel.writeWaits[session]? = some wait) (hgroup : wait.accounting = some session)
    (hwaits : t.channel.writeWaits = s.channel.writeWaits.modify session (·.end .notReady))
    (hledger : t.channel.ledger = s.channel.ledger.discardWaiting (some session) .sessionExpiry)
    (hevents : t.events = s.events ++ [.expired session])
    (hqueue : t.queue = s.queue ++ [.expire session s.channel.generation]) (hkept : Kept s t) : t.Tracked h := by
  obtain ⟨hvalid,hnext,hrequests⟩ := ht.valid.discardWaiting_request session .sessionExpiry
  rw [← hledger] at hvalid hnext hrequests
  have hw : Follows s.channel.writeWaits t.channel.writeWaits := by
    rw [hwaits]
    exact .ends (forall₂_modify_end _ _ _)
  have haccounting : s.channel.accounting (some session) = some session := by
    rw [Channel.accounting, Option.bind_some, hwait]
    exact hgroup
  have hwaiting : t.waiting h = s.waiting h := by
    simp [waiting, hkept.tx, hkept.pending, hqueue, Post.hand, Hand.back]
  have hadmissions : admissions t.events = admissions s.events := by
    simp [hevents, admissions, Event.admitted?]
  have hhandovers : handovers t.events = handovers s.events := by
    simp [hevents, handovers, Event.handed?]
  have hexpired : ∀ i, .expired i ∈ t.events ↔ .expired i ∈ s.events ∨ i = session := by
    simp [hevents]
  exact
    { valid := hvalid
      groups := ht.groups_follows hw
      idle := by
        rw [hwaiting]
        intro item hi r hr
        rw [hrequests, Option.filter_eq_some_iff] at hr
        rw [accounting_follows hw]
        exact ht.idle item hi r hr.1
      issued := by
        rw [hadmissions, hnext]
        exact ht.issued
      source := by
        rw [hwaiting, hadmissions, hhandovers]
        exact ht.source
      sent := by
        rw [hkept.sending, hhandovers]
        exact ht.sent
      routable := by
        rw [hwaiting, hkept.remote]
        exact ht.routable
      ended := by
        intro i he
        rcases (hexpired i).mp he with he | rfl
        · exact ht.ended_follows hw he
        · refine ⟨wait.end .notReady,?_,?_,?_⟩
          · rw [hwaits, List.getElem?_modify_eq, hwait]
            rfl
          · unfold UdpWriteWait.end
            split_ifs <;> exact hgroup
          · unfold UdpWriteWait.end
            split_ifs with hnone
            · rfl
            · simpa [Option.isSome_iff_ne_none] using hnone
      dead := by
        rw [hwaiting]
        intro i he item hi hs
        rw [hrequests]
        cases hr : s.channel.ledger.request? item.request with
        | none => rfl
        | some r =>
          rcases (hexpired i).mp he with he | rfl
          · rw [ht.dead i he item hi hs] at hr
            cases hr
          · have hdrop := (ht.waits_iff haccounting hi hr).mpr hs
            rw [Option.filter_some, hdrop]
            rfl
      posts := by
        intro i g hp
        rw [hqueue, List.mem_append] at hp
        rcases hp with hp | hp
        · exact (hexpired i).mpr (.inl (ht.posts i g hp))
        · cases List.mem_singleton.mp hp
          exact (hexpired session).mpr (.inr rfl)
      expiring := fun i hi => (hexpired i).mpr (.inl (ht.expiring i hi))
      live := by
        rw [hkept.opened, hwaiting]
        intro ho item hi hnone
        cases hr : s.channel.ledger.request? item.request with
        | none =>
          obtain ⟨i,hs,he⟩ := ht.live ho item hi hr
          exact ⟨i,hs,(hexpired i).mpr (.inl he)⟩
        | some r =>
          rw [hrequests, hr, Option.filter_some] at hnone
          have hdrop : Ledger.waits session r = true := by
            by_contra hkeep
            simp [hkeep] at hnone
          exact ⟨session,(ht.waits_iff haccounting hi hr).mp hdrop,(hexpired session).mpr (.inr rfl)⟩
      delivered := by
        rw [hkept.opened, hadmissions, hwaiting, hhandovers]
        intro ho item hi
        refine (ht.delivered ho item hi).imp_right (Or.imp_right ?_)
        rintro ⟨i,hs,he⟩
        exact ⟨i,hs,(hexpired i).mpr (.inl he)⟩
      quiet := by
        rw [hevents]
        exact ht.quiet_snoc (fun i hs => by simp [Event.session] at hs)
      increasing := by
        rw [hadmissions]
        exact ht.increasing }

theorem Tracked.grow (ht : s.Tracked h) (hk : s.Known h) (g : Grow cfg s t) : t.Tracked h := by
  have hkept := g.kept
  cases g with
  | capture tracked hopen =>
    refine ht.capture hk _ ?_
    cases tracked
    · exact .inl rfl
    · exact .inr rfl
  | endWaits waits hends =>
    exact ht.shuffle (.ends hends) rfl rfl rfl rfl (fun _ _ => id) ht.expiring (fun _ => id) (fun _ => id)
      (fun _ _ => .inl)
  | expire session wait group hwait hgroup =>
    have hsame : group = session := by
      rcases ht.groups session wait hwait with hnone | hsome
      · rw [hnone] at hgroup
        cases hgroup
      · rw [hsome, Option.some_inj] at hgroup
        exact hgroup.symm
    subst hsame
    rw [expireSession_eq hwait hgroup] at hkept ⊢
    exact ht.expire hwait hgroup rfl rfl rfl rfl hkept
  | accept data storage destination session counters hadmits hroom =>
    rw [admitted_eq _ _ _ _ _ _ _ (fun _ _ => rfl)] at hkept ⊢
    exact ht.accept (.refl _) hadmits rfl rfl rfl rfl hkept
  | tryAdmit data storage destination session counters hadmits hroom =>
    rw [admitted_eq _ _ _ _ _ _ _ (fun _ _ => rfl), tallyQueued_eq] at hkept ⊢
    have hw := Follows.recount s.channel.writeWaits (fun i q => if session = some i then q + data.length else q)
    exact ht.accept hw hadmits rfl rfl rfl rfl hkept
  | refuseOversized =>
    refine ht.shuffle (.refl _) rfl rfl rfl rfl ?_ ht.expiring (fun _ => id) ?_ ?_
    · intro i g hp
      simpa using hp
    · intro item hi
      simpa [waiting, Post.hand, Hand.back] using hi
    · intro _ item hi
      left
      simpa [waiting, Post.hand, Hand.back] using hi
  | turn =>
    exact ht.shuffle (.refl _) rfl rfl rfl rfl (fun _ _ => id) ht.expiring (fun _ => id) (fun _ => id) (fun _ _ => .inl)

/-- A completion ends the request of the datagram that was sent. -/
theorem Tracked.complete {item : TxItem} (ht : s.Tracked (.sent item)) (hd : s.Distinct (.sent item)) {written : ℕ}
    (hledger : t.channel.ledger = s.channel.ledger.completeLocked item.request written)
    (hevents : t.events = s.events) (hw : Follows s.channel.writeWaits t.channel.writeWaits)
    (hopened : t.channel.opened = s.channel.opened) (hremote : t.channel.remoteEndpoint = s.channel.remoteEndpoint)
    (hqueue : t.queue = s.queue) (hsending : t.channel.sending = s.channel.sending)
    (hwaiting : t.waiting .done = s.waiting (.sent item)) : t.Tracked .done := by
  obtain ⟨hvalid,hnext,hrequests⟩ := ht.valid.completeLocked_request item.request written
  rw [← hledger] at hvalid hnext hrequests
  have hother : ∀ i ∈ s.waiting (.sent item),
      t.channel.ledger.request? i.request = s.channel.ledger.request? i.request := by
    intro i hi
    have hhanded : item ∈ handovers s.events := ht.sent item (.inr List.mem_cons_self)
    have hne := (List.pairwise_append.mp hd).2.2 item hhanded i hi
    rw [hrequests, if_neg (Ne.symm hne)]
  exact
    { valid := hvalid
      groups := ht.groups_follows hw
      idle := by
        rw [hwaiting]
        intro i hi r hr
        rw [hother i hi] at hr
        rw [accounting_follows hw]
        exact ht.idle i hi r hr
      issued := by
        rw [hevents, hnext]
        exact ht.issued
      source := by
        rw [hwaiting, hevents]
        exact ht.source
      sent := by
        rw [hsending, hevents]
        exact fun i hi => ht.sent i (hi.imp_right (fun h => nomatch h))
      routable := by
        rw [hwaiting, hremote]
        exact ht.routable
      ended := by
        rw [hevents]
        exact fun i he => ht.ended_follows hw he
      dead := by
        rw [hwaiting, hevents]
        intro i he j hj hs
        rw [hother j hj]
        exact ht.dead i he j hj hs
      posts := by
        rw [hqueue, hevents]
        exact ht.posts
      expiring := nofun
      live := by
        rw [hopened, hwaiting, hevents]
        intro ho i hi hr
        rw [hother i hi] at hr
        exact ht.live ho i hi hr
      delivered := by
        rw [hopened, hwaiting, hevents]
        exact ht.delivered
      quiet := hevents ▸ ht.quiet
      increasing := hevents ▸ ht.increasing }

/-- A failed handover ends every request twice: when it is noticed and when the error is told. -/
theorem Tracked.throwing {item : TxItem} (ht : s.Tracked (.current item)) : (s.thrown item).ended.Tracked .empty := by
  have hlost : ∀ waits : List UdpWriteWait, Follows waits (waits.map (·.end .notReady)) :=
    fun waits => .ends (forall₂_map_end _ _)
  rw [ended_eq, thrown_eq]
  obtain ⟨-,hbegun,-,-⟩ := ht.valid.beginLocked_request item.request
  obtain ⟨-,hfirst,-⟩ := Ledger.endAll_request (c := (s.channel.ledger.beginLocked item.request).1) .connectionLoss
  obtain ⟨hvalid,hnext,hnone⟩ := Ledger.endAll_request
    (c := (s.channel.ledger.beginLocked item.request).1.endAll .connectionLoss) .connectionLoss
  refine ht.lose ?_ hvalid hnone (hnext.trans (hfirst.trans hbegun)) rfl rfl rfl rfl nofun (fun _ => id) ?_
  · dsimp only
    exact (Follows.recount _ _).trans ((hlost _).trans ((hlost _).trans (.recount _ _)))
  · intro i hi
    simp [waiting, Hand.front, Hand.back] at hi ⊢
    tauto

/-- A failed send ends the request that was sent, and then every other one. -/
theorem Tracked.fail {item : TxItem} (ht : s.Tracked (.sent item)) (written : ℕ) :
    (Strand.dropQueued { s with channel := { s.channel with
      ledger := s.channel.ledger.completeLocked item.request written }.failWrites } item).Tracked .done := by
  rw [dropQueued_eq]
  obtain ⟨-,hcompleted,-⟩ := ht.valid.completeLocked_request item.request written
  obtain ⟨hvalid,hnext,hnone⟩ :=
    Ledger.endAll_request (c := s.channel.ledger.completeLocked item.request written) .connectionLoss
  refine ht.lose ?_ hvalid hnone (hnext.trans hcompleted) rfl rfl rfl rfl nofun
    (fun i hi => hi.imp_right nofun) (fun _ => id)
  dsimp only
  exact (Follows.ends (forall₂_map_end _ _)).trans (.recount _ _)

theorem Tracked.error (ht : s.Tracked h) : s.ended.Tracked h := by
  rw [ended_eq]
  obtain ⟨hvalid,hnext,hnone⟩ := Ledger.endAll_request (c := s.channel.ledger) .connectionLoss
  refine ht.lose ?_ hvalid hnone hnext rfl rfl rfl rfl ht.expiring (fun _ => id) ?_
  · dsimp only
    exact (Follows.ends (forall₂_map_end _ _)).trans (.recount _ _)
  · intro i hi
    simp [waiting] at hi ⊢
    tauto

theorem Tracked.move (hm : s.Metered cfg h) (hd : s.Distinct h) (ht : s.Tracked h) (m : Move cfg (s,h) (t,k)) :
    t.Tracked k := by
  -- a handler that finds the channel closed finds it failed
  have hclosed : s.closed = true → s.channel.opened = false := fun hc =>
    hm.running.opened (hm.running.closed ▸ hc)
  have hlost : ∀ {p : Prop}, s.closed = true → s.channel.opened = true → p := by
    intro p hc ho
    rw [hclosed hc] at ho
    cases ho
  cases m with
  | grow s t h g => exact ht.grow hm.known g
  | take s post rest hqueue => exact ht.take hqueue
  | takeSent s item rest hsending => exact ht.takeSent hsending
  | forget s item hgone => exact ht.forget _ (fun ho => hgone.elim (fun hc => hlost hc ho) id)
  | refuse s item hfull => exact absurd hfull hm.bounded.not_refused
  | park s item => exact ht.park
  | enqueue s item => exact ht.enqueue
  | enqueueTried s item => exact ht.enqueueTried
  | dropTried s item hgone =>
    refine ht.dropHeld (.inl rfl) (fun ho => ?_)
    rcases hgone with hc | hdead | ⟨hnone,hremote⟩
    · exact hlost hc ho
    · exact hdead
    · have hsome := ht.routable item (by simp [waiting, Hand.front, Hand.back]) hnone
      rw [hremote] at hsome
      cases hsome
  | activate =>
    exact ht.rehand (.refl _) rfl rfl rfl rfl (fun _ _ => id) ht.expiring (fun _ => id) (fun _ => Iff.rfl)
  | relieve => exact ht.relieve
  | dropDead s h item rest htx hdead => exact ht.dropDead htx hdead
  | pick s item rest htx => exact ht.pick htx
  | dropUnroutable s item hnone =>
    have hsome := ht.routable item (by simp [waiting, Hand.front]) hnone.1
    rw [hnone.2] at hsome
    cases hsome
  | dropCurrent s item hdead => exact ht.dropHeld (.inr rfl) (fun _ => hdead)
  | handOver s item hlive =>
    refine ht.handOver hd hlive rfl rfl rfl rfl rfl rfl rfl ?_
    simp [waiting, Hand.front, Hand.back]
  | throwing s item => exact ht.throwing
  | complete s item written =>
    rw [dropQueued_eq]
    exact ht.complete hd rfl rfl (.recount _ (fun i q => q - load i [item])) rfl rfl rfl rfl rfl
  | fail s item written => exact ht.fail written
  | discard s session => exact ht.discard
  | error s h hempty => exact ht.error
  | clear s h hc => exact ht.clear (hclosed hc)
  | rest => exact ht.rehand (.refl _) rfl rfl rfl rfl (fun _ _ => id) nofun (fun _ => id) (fun _ => Iff.rfl)

end Strand
end Wirestead.Transport.UdpChannel
