import Wirestead.Transport.UdpChannel.Tracking

/-! # Datagrams admitted alike keep their order

A plain write that is parked can be overtaken by a nonblocking one, which goes straight to
`tx_`. Among writes of one kind the queues keep the order of admission; requests are
numbered in that order.
-/
namespace Wirestead.Transport.UdpChannel.Strand
open Diagnostics Sizes TcpClient
variable {N : Type*} {cfg : Config} {s t : Strand N} {h k : Hand} {kind kind' : ℕ → Bool}

/-- Everything that was handed over, and then what is to come. -/
def line (s : Strand N) (h : Hand) : List TxItem := handovers s.events ++ s.waiting h

/-- The order of one kind; `kind` tells which requests are of plain writes. -/
structure Ordered (kind : ℕ → Bool) (s : Strand N) (h : Hand) : Prop where
  order : (s.line h).Pairwise (fun a b => kind a.request = kind b.request → a.request < b.request)
  parked : ∀ item ∈ s.channel.pending, kind item.request = true
  posts : ∀ item ∈ plains s.queue ++ h.reserved, kind item.request = true
  tried : ∀ item, item ∈ tries s.queue ∨ h = .tried item → kind item.request = false
  plain : ∀ item g, .admitted (.enqueue item g) ∈ s.events → kind item.request = true
  nonblocking : ∀ item g, .admitted (.tryEnqueue item g) ∈ s.events → kind item.request = false
  pressure : s.channel.pending ≠ [] → s.channel.backpressureActive = true

theorem Ordered.distinct (ho : s.Ordered kind h) : s.Distinct h := by
  refine ho.order.imp ?_
  intro a b hab heq
  have hlt := hab (by rw [heq])
  omega

/-- Datagrams that are dropped or only change hands. -/
theorem Ordered.sublist (ho : s.Ordered kind h) (hline : (t.line k).Sublist (s.line h))
    (hevents : ∀ handler, .admitted handler ∈ t.events → .admitted handler ∈ s.events)
    (hparked : ∀ item ∈ t.channel.pending, kind item.request = true)
    (hposts : ∀ item ∈ plains t.queue ++ k.reserved, item ∈ plains s.queue ++ h.reserved)
    (htried : ∀ item, item ∈ tries t.queue ∨ k = .tried item → item ∈ tries s.queue ∨ h = .tried item)
    (hpressure : t.channel.pending ≠ [] → t.channel.backpressureActive = true) : t.Ordered kind k where
  order := ho.order.sublist hline
  parked := hparked
  posts := fun item hi => ho.posts item (hposts item hi)
  tried := fun item hi => ho.tried item (htried item hi)
  plain := fun item g hi => ho.plain item g (hevents _ hi)
  nonblocking := fun item g hi => ho.nonblocking item g (hevents _ hi)
  pressure := hpressure

/-- Dropping datagrams keeps the line in order. -/
theorem line_sublist (hevents : t.events = s.events) (htx : t.channel.tx.Sublist s.channel.tx)
    (hpending : t.channel.pending.Sublist s.channel.pending) (hqueue : t.queue = s.queue)
    (hfront : k.front.Sublist h.front) (hback : k.back.Sublist h.back) : (t.line k).Sublist (s.line h) := by
  unfold line waiting
  rw [hevents, hqueue]
  exact (List.Sublist.refl _).append ((((hfront.append htx).append hpending).append hback).append (.refl _))

/-- A datagram that passes others it need not follow. -/
theorem pairwise_overtake {R : TxItem → TxItem → Prop} {front passed rest : List TxItem} {item : TxItem}
    (hpair : (front ++ (passed ++ item :: rest)).Pairwise R) (hpass : ∀ i ∈ passed, R item i) :
    (front ++ item :: (passed ++ rest)).Pairwise R := by
  simp only [List.pairwise_append, List.pairwise_cons, List.mem_append, List.mem_cons] at hpair ⊢
  grind

/-- The oldest post goes into the hand. -/
theorem Ordered.take (ho : s.Ordered kind .empty) {post : Post} {rest : List Post} (hqueue : s.queue = post :: rest) :
    ({ s with queue := rest } : Strand N).Ordered kind post.hand := by
  refine ho.sublist ?_ (fun _ => id) ho.parked ?_ ?_ ho.pressure
  · have hempty : Hand.empty.front = [] ∧ Hand.empty.back = [] := ⟨rfl,rfl⟩
    simp [line, waiting, hqueue, posted_cons, post.hand_front.1, hempty.1, hempty.2]
  · intro i hi
    rw [hqueue, plains_cons]
    simp only [List.mem_append] at hi ⊢
    tauto
  · intro i hi
    left
    rw [hqueue, tries_cons, List.mem_append]
    refine hi.symm.imp_left (fun h => ?_)
    rw [h]
    exact List.mem_cons_self

theorem Ordered.park {item : TxItem} (ho : s.Ordered kind (.posted item))
    (hactive : s.channel.backpressureActive = true) : (s.parkedWith item).Ordered kind .empty := by
  rw [parkedWith_eq]
  refine ho.sublist ?_ (fun _ => id) ?_ ?_ ?_ (fun _ => hactive)
  · simp [line, waiting, Hand.front, Hand.back]
  · intro i hi
    rcases List.mem_append.mp hi with hi | hi
    · exact ho.parked i hi
    · exact ho.posts i (List.mem_append_right _ hi)
  · simp [Hand.reserved]
    tauto
  · simp

/-- Without pressure nothing is parked, and a plain datagram joins the line at its end. -/
theorem Ordered.enqueue {item : TxItem} (ho : s.Ordered kind (.posted item))
    (hactive : s.channel.backpressureActive = false) : (s.queuedWith item).Ordered kind .empty := by
  have hnone : s.channel.pending = [] := by
    by_contra hne
    rw [ho.pressure hne] at hactive
    cases hactive
  rw [queuedWith_eq]
  refine ho.sublist ?_ (fun _ => id) ho.parked ?_ ?_ ho.pressure
  · simp [line, waiting, Hand.front, Hand.back, hnone]
  · simp [Hand.reserved]
    tauto
  · simp

/-- A nonblocking datagram passes the plain ones that are parked. -/
theorem Ordered.enqueueTried {item : TxItem} (ho : s.Ordered kind (.tried item)) :
    ({ s with channel.tx := s.channel.tx ++ [item] } : Strand N).Ordered kind .empty := by
  have hline : s.line (.tried item) = (handovers s.events ++ s.channel.tx) ++
      (s.channel.pending ++ item :: posted s.queue) := by
    simp [line, waiting, Hand.front, Hand.back]
  have horder := ho.order
  rw [hline] at horder
  refine ⟨?_,ho.parked,ho.posts,?_,ho.plain,ho.nonblocking,ho.pressure⟩
  · have hpass := pairwise_overtake horder (fun i hi heq => ?_)
    · simpa [line, waiting, Hand.front, Hand.back] using hpass
    · rw [ho.parked i hi, ho.tried item (.inr rfl)] at heq
      cases heq
  · exact fun i hi => ho.tried i (hi.imp_right (fun h => by cases h))

theorem Ordered.discard {session : ℕ} (ho : s.Ordered kind (.expiring session)) :
    (s.discardSessionQueue session).Ordered kind .empty := by
  rw [discardSessionQueue_eq]
  have hparked : ∀ item ∈ s.channel.pending.filter (·.session ≠ some session), item ∈ s.channel.pending :=
    fun item hi => List.mem_of_mem_filter hi
  refine ho.sublist ?_ (fun _ => id) (fun i hi => ho.parked i (hparked i hi)) (fun _ => id) ?_ (fun hne => ?_)
  · exact line_sublist rfl List.filter_sublist List.filter_sublist rfl (.refl _) (.refl _)
  · simp
  · obtain ⟨item,hi⟩ := List.exists_mem_of_ne_nil _ hne
    exact ho.pressure (List.ne_nil_of_mem (hparked item hi))

variable [CommRing N]

omit [CommRing N] in
theorem mem_waiting_of_pending {item : TxItem} (hi : item ∈ s.channel.pending) : item ∈ s.waiting h := by
  simp only [waiting, List.mem_append]
  tauto

omit [CommRing N] in
theorem mem_posted_of_plains {item : TxItem} {queue : List Post} (hi : item ∈ plains queue ∨ item ∈ tries queue) :
    item ∈ posted queue := by
  have hpost : ∀ post : Post, post.plain? = some item ∨ post.tried? = some item → post.item? = some item := by
    intro post hp
    cases post with
    | write handler => cases handler <;> simp_all [Post.plain?, Post.tried?, Post.item?, Handler.item?]
    | expire => simp [Post.plain?, Post.tried?] at hp
  rcases hi with hi | hi
  · obtain ⟨post,hmem,heq⟩ := List.mem_filterMap.mp hi
    exact List.mem_filterMap.mpr ⟨post,hmem,hpost post (.inl heq)⟩
  · obtain ⟨post,hmem,heq⟩ := List.mem_filterMap.mp hi
    exact List.mem_filterMap.mpr ⟨post,hmem,hpost post (.inr heq)⟩

omit [CommRing N] in
theorem mem_waiting_of_posts {item : TxItem} (hi : item ∈ plains s.queue ++ h.reserved) : item ∈ s.waiting h := by
  have hback : item ∈ h.reserved → item ∈ h.back := by cases h <;> simp [Hand.reserved, Hand.back]
  simp only [waiting, List.mem_append] at hi ⊢
  rcases hi with hi | hi
  · exact .inr (mem_posted_of_plains (.inl hi))
  · exact .inl (.inr (hback hi))

omit [CommRing N] in
theorem mem_waiting_of_tried {item : TxItem} (hi : item ∈ tries s.queue ∨ h = .tried item) : item ∈ s.waiting h := by
  simp only [waiting, List.mem_append]
  rcases hi with hi | rfl
  · exact .inr (mem_posted_of_plains (.inr hi))
  · exact .inl (.inr List.mem_cons_self)

omit [CommRing N] in
/-- The next request comes after all others. -/
theorem Ordered.accept (ho : s.Ordered kind h) (ht : s.Tracked h) (item : TxItem) {handler : Handler} (plain : Bool)
    (hid : item.request = s.channel.ledger.nextId + 1)
    (hhandler : handler = if plain then .enqueue item s.channel.generation else .tryEnqueue item s.channel.generation)
    (hkept : Kept s t) (hqueue : t.queue = s.queue ++ [.write handler])
    (hevents : t.events = s.events ++ [.admitted handler]) :
    t.Ordered (Function.update kind item.request plain) h := by
  have hitem : handler.item? = some item := by
    rw [hhandler]
    cases plain <;> rfl
  have hline : t.line h = s.line h ++ [item] := by
    simp [line, waiting, hkept.tx, hkept.pending, hqueue, hevents, posted, Post.item?, hitem, handovers, Event.handed?]
  have hissued : ∀ i ∈ admissions s.events, i.request < item.request := by
    intro i hi
    have hle := ht.issued i hi
    omega
  have hsame : ∀ i ∈ admissions s.events, Function.update kind item.request plain i.request = kind i.request :=
    fun i hi => Function.update_of_ne (hissued i hi).ne _ _
  have hwaiting : ∀ i ∈ s.waiting h, i ∈ admissions s.events := fun i hi => ht.source i (.inl hi)
  have hadmitted : ∀ {handler : Handler} {i : TxItem}, .admitted handler ∈ s.events → handler.item? = some i →
      i ∈ admissions s.events := fun hmem heq => List.mem_filterMap.mpr ⟨_,hmem,heq⟩
  have hself : Function.update kind item.request plain item.request = plain := Function.update_self ..
  have hplains : ∀ i ∈ plains t.queue ++ h.reserved,
      i ∈ plains s.queue ++ h.reserved ∨ (i = item ∧ plain = true) := by
    intro i hi
    rw [hqueue, plains_append, plains_singleton, hhandler] at hi
    cases plain with
    | true =>
      simp only [if_true, Post.hand, Hand.reserved, List.mem_append, List.mem_singleton] at hi ⊢
      tauto
    | false => simpa [Post.hand, Hand.reserved] using hi
  have htries : ∀ i, i ∈ tries t.queue ∨ h = .tried i →
      (i ∈ tries s.queue ∨ h = .tried i) ∨ (i = item ∧ plain = false) := by
    intro i hi
    rw [hqueue, tries_append, tries_singleton, hhandler] at hi
    cases plain with
    | true => simpa [Post.hand, Hand.counted] using hi
    | false =>
      simp only [Bool.false_eq_true, if_false, Post.hand, Hand.counted, List.mem_append, List.mem_singleton] at hi ⊢
      tauto
  constructor
  · rw [hline, List.pairwise_append]
    refine ⟨?_,List.pairwise_singleton _ _,?_⟩
    · refine ho.order.imp_of_mem ?_
      intro a b ha hb hab heq
      have hsource : ∀ i ∈ s.line h, i ∈ admissions s.events :=
        fun i hi => ht.source i (List.mem_append.mp hi).symm
      rw [hsame a (hsource a ha), hsame b (hsource b hb)] at heq
      exact hab heq
    · intro a ha b hb _
      rw [List.mem_singleton.mp hb]
      exact hissued a (ht.source a (List.mem_append.mp ha).symm)
  · intro i hi
    rw [hkept.pending] at hi
    rw [hsame i (hwaiting i (mem_waiting_of_pending hi))]
    exact ho.parked i hi
  · intro i hi
    rcases hplains i hi with hold | ⟨rfl,rfl⟩
    · rw [hsame i (hwaiting i (mem_waiting_of_posts hold))]
      exact ho.posts i hold
    · exact hself
  · intro i hi
    rcases htries i hi with hold | ⟨rfl,rfl⟩
    · rw [hsame i (hwaiting i (mem_waiting_of_tried hold))]
      exact ho.tried i hold
    · exact hself
  · intro i g hi
    rw [hevents, List.mem_append, List.mem_singleton] at hi
    rcases hi with hi | hi
    · rw [hsame i (hadmitted hi rfl)]
      exact ho.plain i g hi
    · cases plain <;> simp_all
  · intro i g hi
    rw [hevents, List.mem_append, List.mem_singleton] at hi
    rcases hi with hi | hi
    · rw [hsame i (hadmitted hi rfl)]
      exact ho.nonblocking i g hi
    · cases plain <;> simp_all
  · rw [hkept.pending, hkept.active]
    exact ho.pressure

theorem Ordered.grow (ho : s.Ordered kind h) (ht : s.Tracked h) (g : Grow cfg s t) :
    ∃ kind', t.Ordered kind' h := by
  have hkept := g.kept
  cases g with
  | capture | endWaits | turn => exact ⟨kind,ho.order,ho.parked,ho.posts,ho.tried,ho.plain,ho.nonblocking,ho.pressure⟩
  | expire session wait group hwait hgroup =>
    rw [expireSession_eq hwait hgroup]
    refine ⟨kind,ho.sublist ?_ ?_ ho.parked ?_ ?_ ho.pressure⟩
    · simp [line, waiting, Post.hand, Hand.back, handovers, Event.handed?]
    · simp
    · simp [Post.hand, Hand.reserved]
    · simp [Post.hand, Hand.counted]
  | accept data storage destination session counters hadmits hroom =>
    rw [admitted_eq _ _ _ _ _ _ _ (fun _ _ => rfl)] at hkept ⊢
    exact ⟨_,ho.accept ht (s.newItem data storage destination session) true rfl rfl hkept rfl rfl⟩
  | tryAdmit data storage destination session counters hadmits hroom =>
    rw [admitted_eq _ _ _ _ _ _ _ (fun _ _ => rfl), tallyQueued_eq] at hkept ⊢
    exact ⟨_,ho.accept ht (s.newItem data storage destination session) false rfl rfl hkept rfl rfl⟩
  | refuseOversized =>
    refine ⟨kind,ho.sublist ?_ (fun _ => id) ho.parked ?_ ?_ ho.pressure⟩
    · simp [line, waiting, Post.hand, Hand.back]
    · simp [Post.hand, Hand.reserved]
    · simp [Post.hand, Hand.counted]

/-- Handlers keep the order of the line; a nonblocking write only goes past parked ones. -/
theorem Ordered.move (hm : s.Metered cfg h) (ho : s.Ordered kind h) (ht : s.Tracked h) (m : Move cfg (s,h) (t,k)) :
    ∃ kind', t.Ordered kind' k := by
  cases m with
  | grow s t h g => exact ho.grow ht g
  | take s post rest hqueue => exact ⟨kind,ho.take hqueue⟩
  | takeSent s item rest hsending =>
    refine ⟨kind,ho.sublist (.refl _) (fun _ => id) ho.parked (fun _ => id) ?_ ho.pressure⟩
    exact fun i hi => hi.imp_right (fun h => by cases h)
  | forget s item hgone =>
    refine ⟨kind,ho.sublist ?_ (fun _ => id) ho.parked ?_ ?_ ho.pressure⟩
    · simp [line, waiting, Hand.front, Hand.back]
    · simp [Hand.reserved]
      tauto
    · simp
  | refuse s item hfull => exact absurd hfull hm.bounded.not_refused
  | park s item hopen hlive hactive => exact ⟨kind,ho.park hactive⟩
  | enqueue s item hopen hlive hactive => exact ⟨kind,ho.enqueue hactive⟩
  | enqueueTried s item hopen => exact ⟨kind,ho.enqueueTried⟩
  | dropTried s item hgone =>
    rw [dropQueued_eq]
    refine ⟨kind,ho.sublist ?_ (fun _ => id) ho.parked (fun _ => id) ?_ ho.pressure⟩
    · simp [line, waiting, Hand.front, Hand.back]
    · simp
      tauto
  | activate => exact ⟨kind,ho.order,ho.parked,ho.posts,ho.tried,ho.plain,ho.nonblocking,fun _ => rfl⟩
  | relieve =>
    rw [relieved_eq]
    refine ⟨kind,ho.sublist ?_ (fun _ => id) (by simp) (fun _ => id) (fun _ => id) (fun h => absurd rfl h)⟩
    simp [line, waiting]
  | dropDead s h item rest htx hdead =>
    rw [dropQueued_eq]
    refine ⟨kind,ho.sublist ?_ (fun _ => id) ho.parked (fun _ => id) (fun _ => id) ho.pressure⟩
    simp [line, waiting, htx]
  | pick s item rest htx =>
    refine ⟨kind,ho.sublist ?_ (fun _ => id) ho.parked (fun _ => id) ?_ ho.pressure⟩
    · simp [line, waiting, Hand.front, Hand.back, htx]
    · simp
  | dropUnroutable s item hnone =>
    have hsome := ht.routable item (by simp [waiting, Hand.front]) hnone.1
    rw [hnone.2] at hsome
    cases hsome
  | dropCurrent s item hdead =>
    rw [dropQueued_eq]
    refine ⟨kind,ho.sublist ?_ (fun _ => id) ho.parked (fun _ => id) ?_ ho.pressure⟩
    · simp [line, waiting, Hand.front, Hand.back]
    · simp
  | handOver s item hlive =>
    refine ⟨kind,ho.sublist ?_ ?_ ho.parked (fun _ => id) ?_ ho.pressure⟩
    · simp [line, waiting, Hand.front, Hand.back, handovers, Event.handed?]
    · simp
    · simp
  | throwing s item =>
    rw [ended_eq, thrown_eq]
    refine ⟨kind,ho.sublist ?_ (fun _ => id) (by simp) (fun _ => id) ?_ (fun h => absurd rfl h)⟩
    · exact line_sublist rfl (List.nil_sublist _) (List.nil_sublist _) rfl (List.nil_sublist _) (.refl _)
    · simp
  | complete s item written =>
    rw [dropQueued_eq]
    refine ⟨kind,ho.sublist (.refl _) (fun _ => id) ho.parked (fun _ => id) ?_ ho.pressure⟩
    simp
  | fail s item written =>
    rw [dropQueued_eq]
    refine ⟨kind,ho.sublist (.refl _) (fun _ => id) ho.parked (fun _ => id) ?_ ho.pressure⟩
    simp
  | discard s session => exact ⟨kind,ho.discard⟩
  | error s h hempty =>
    rw [ended_eq]
    refine ⟨kind,ho.sublist ?_ (fun _ => id) (by simp) (fun _ => id) (fun _ => id) (fun h => absurd rfl h)⟩
    exact line_sublist rfl (List.nil_sublist _) (List.nil_sublist _) rfl (.refl _) (.refl _)
  | clear s h hc =>
    rw [cleared_eq]
    refine ⟨kind,ho.sublist ?_ (fun _ => id) (by simp) (fun _ => id) (fun _ => id) (fun h => absurd rfl h)⟩
    exact line_sublist rfl (List.nil_sublist _) (List.nil_sublist _) rfl (.refl _) (.refl _)
  | rest =>
    refine ⟨kind,ho.sublist (.refl _) (fun _ => id) ho.parked (fun _ => id) ?_ ho.pressure⟩
    simp

omit [CommRing N] in
/-- What holds between two moves of a channel, with what the run has shown. -/
structure Sound (cfg : Config) (s : Strand N) (h : Hand) : Prop where
  metered : s.Metered cfg h
  tracked : s.Tracked h
  ordered : ∃ kind, s.Ordered kind h

theorem Sound.move (hs : s.Sound cfg h) (m : Move cfg (s,h) (t,k)) : t.Sound cfg k := by
  obtain ⟨kind,ho⟩ := hs.ordered
  exact ⟨hs.metered.move m,hs.tracked.move hs.metered ho.distinct m,ho.move hs.metered hs.tracked m⟩

theorem Sound.path {p q : Strand N × Hand} (hs : p.1.Sound cfg p.2) (m : Path cfg p q) : q.1.Sound cfg q.2 := by
  induction m with
  | refl => exact hs
  | tail _ m ih => exact ih.move m

theorem opened_sound (cfg : Config) (generation : ℕ) (remote : Option Endpoint) :
    (opened (N := N) generation remote).Sound cfg .empty where
  metered := opened_metered cfg generation remote
  tracked :=
    { valid := Ledger.valid_new
      groups := nofun
      idle := nofun
      issued := nofun
      source := fun _ h => h.elim nofun nofun
      sent := fun _ h => h.elim nofun nofun
      routable := nofun
      ended := nofun
      dead := nofun
      posts := nofun
      expiring := nofun
      live := fun _ => nofun
      delivered := fun _ => nofun
      quiet := .nil
      increasing := .nil }
  ordered := ⟨fun _ => true,.nil,nofun,nofun,fun _ h => h.elim nofun nofun,nofun,nofun,fun h => absurd rfl h⟩

theorem run_sound (cfg : Config) (generation : ℕ) (remote : Option Endpoint) (ops : List StepOp) :
    ((opened generation remote : Strand N).run cfg ops).Sound cfg .empty :=
  (opened_sound cfg generation remote).path (run_path generation remote ops)

/-- The requests of a run are numbered as they are admitted, and what goes to the socket was
admitted and goes there once. -/
theorem run_handed_once (cfg : Config) (generation : ℕ) (remote : Option Endpoint) (ops : List StepOp) :
    let s : Strand N := (opened generation remote).run cfg ops
    (admissions s.events).Pairwise (fun a b => a.request < b.request) ∧
    (∀ item ∈ handovers s.events, item ∈ admissions s.events) ∧
    (handovers s.events).Pairwise (fun a b => a.request ≠ b.request) := by
  have hs := run_sound (N := N) cfg generation remote ops
  obtain ⟨kind,ho⟩ := hs.ordered
  refine ⟨hs.tracked.increasing,fun item hi => hs.tracked.source item (.inr hi),?_⟩
  exact (List.pairwise_append.mp ho.distinct).1

/-- Once a session with statistics has expired, none of its datagrams goes to the socket,
whatever was queued or on its way through a handler, and none is admitted. -/
theorem run_expired_silent (cfg : Config) (generation : ℕ) (remote : Option Endpoint) (ops : List StepOp) :
    let s : Strand N := (opened generation remote).run cfg ops
    s.events.Pairwise (fun e e' => ∀ session, e = .expired session → e'.session ≠ some session) :=
  (run_sound cfg generation remote ops).tracked.quiet

omit [CommRing N] in
/-- Events appear in the order of their requests. -/
theorem Tracked.sublist_of_lt (ht : s.Tracked h) {e e' : Event} {a b : TxItem} (he : e ∈ s.events) (he' : e' ∈ s.events)
    (ha : e.admitted? = some a) (hb : e'.admitted? = some b) (hlt : a.request < b.request) :
    [e,e'].Sublist s.events := by
  have hpair := ht.increasing
  unfold admissions at hpair
  rw [List.pairwise_filterMap] at hpair
  obtain ⟨front,rest,hsplit⟩ := List.append_of_mem he'
  rw [hsplit] at he hpair ⊢
  rw [List.pairwise_append, List.pairwise_cons] at hpair
  rcases List.mem_append.mp he with hfront | hrest
  · have htail : [e'].Sublist (e' :: rest) := List.singleton_sublist.mpr List.mem_cons_self
    exact (List.singleton_sublist.mpr hfront).append htail
  · rcases List.mem_cons.mp hrest with rfl | hrest
    · rw [ha, Option.some_inj] at hb
      rw [hb] at hlt
      exact absurd hlt (lt_irrefl _)
    · have hgt := hpair.2.1.1 e hrest b hb a ha
      omega

/-- Two writes of one kind go to the socket in the order of their admissions; the pressure,
expired sessions and the writes of the other kind do not matter. -/
theorem run_keeps_order (cfg : Config) (generation : ℕ) (remote : Option Endpoint) (ops : List StepOp) :
    let s : Strand N := (opened generation remote).run cfg ops
    (handovers s.events).Pairwise (fun a b => ∀ write, write = Handler.enqueue ∨ write = Handler.tryEnqueue →
      ∀ g g', .admitted (write a g) ∈ s.events → .admitted (write b g') ∈ s.events →
        [.admitted (write a g),.admitted (write b g')].Sublist s.events) := by
  intro s
  have hs : s.Sound cfg .empty := run_sound cfg generation remote ops
  obtain ⟨kind,ho⟩ := hs.ordered
  refine (List.pairwise_append.mp ho.order).1.imp ?_
  intro a b hab write hwrite g g' ha hb
  rcases hwrite with rfl | rfl
  · have hlt := hab (by rw [ho.plain a g ha, ho.plain b g' hb])
    exact hs.tracked.sublist_of_lt ha hb rfl rfl hlt
  · have hlt := hab (by rw [ho.nonblocking a g ha, ho.nonblocking b g' hb])
    exact hs.tracked.sublist_of_lt ha hb rfl rfl hlt

end Wirestead.Transport.UdpChannel.Strand
