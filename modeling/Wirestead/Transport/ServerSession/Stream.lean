import Wirestead.Transport.ServerSession.Counted
import Wirestead.Diagnostics.LedgerRequests

/-! # What a session writes is a prefix of what it has accepted

A nonblocking write goes straight to `tx_` and may overtake plain ones that are parked.
Writes of one kind are handed to the socket as they were accepted, and none is left out
before a later one; a session that closes only cuts the stream off.
-/
namespace Wirestead.Transport.ServerSession
open Diagnostics Sizes TcpClient

def Event.request? : Event → Option (Bool × TrackedBuffer)
  | .accepted plain item => some (plain,item)
  | _ => none

def Event.batch : Event → List TrackedBuffer
  | .handed batch => batch
  | _ => []

/-- The writes that were accepted, with `true` for the plain ones. -/
def requests (events : List Event) : List (Bool × TrackedBuffer) := events.filterMap Event.request?

/-- The accepted writes of one kind. -/
def accepted (plain : Bool) (events : List Event) : List TrackedBuffer :=
  ((requests events).filter (fun r => r.1 = plain)).map Prod.snd

/-- What was handed to the socket. -/
def handovers (events : List Event) : List TrackedBuffer := events.flatMap Event.batch

@[simp] theorem requests_append (events more : List Event) :
    requests (events ++ more) = requests events ++ requests more :=
  List.filterMap_append

@[simp] theorem handovers_append (events more : List Event) :
    handovers (events ++ more) = handovers events ++ handovers more := List.flatMap_append

def Hand.front : Hand → List TrackedBuffer
  | .batch buffers => buffers
  | _ => []

@[simp] theorem Post.hand_front (post : Post) : post.hand.front = [] := by
  cases post <;> rfl

/-- The writes of one kind in a list; `kind` tells which requests are of plain ones. -/
def ofKind (kind : ℕ → Bool) (plain : Bool) (items : List TrackedBuffer) : List TrackedBuffer :=
  items.filter (fun item => kind item.request = plain)

section Kinds
variable {kind : ℕ → Bool} {items more : List TrackedBuffer} {item : TrackedBuffer}

@[simp] theorem ofKind_append (plain : Bool) :
    ofKind kind plain (items ++ more) = ofKind kind plain items ++ ofKind kind plain more := List.filter_append ..

theorem ofKind_front (kind : ℕ → Bool) (plain : Bool) (h : items <+: more) :
    ofKind kind plain items <+: ofKind kind plain more :=
  h.filter _

theorem ofKind_congr {kind' : ℕ → Bool} (h : ∀ i ∈ items, kind' i.request = kind i.request) (plain : Bool) :
    ofKind kind' plain items = ofKind kind plain items := by
  apply List.filter_congr
  intro i hi
  rw [h i hi]

/-- A write passes writes of the other kind. -/
theorem ofKind_swap (hitems : ∀ i ∈ items, kind i.request = true) (hitem : kind item.request = false) (plain : Bool) :
    ofKind kind plain (item :: items) = ofKind kind plain (items ++ [item]) := by
  have hsingle : ofKind kind true [item] = [] := by simp [ofKind, hitem]
  have hnone : ofKind kind false items = [] := by
    apply List.filter_eq_nil_iff.mpr
    intro i hi
    simp [hitems i hi]
  have hcons : item :: items = [item] ++ items := rfl
  rw [hcons, ofKind_append, ofKind_append]
  cases plain with
  | true => rw [hsingle, List.nil_append, List.append_nil]
  | false => rw [hnone, List.nil_append, List.append_nil]

end Kinds

namespace Session
variable {N : Type*} {cfg : Config} {s t : Session N} {h k : Hand} {kind : ℕ → Bool}

/-- What was handed over, and then what is to come. -/
def line (s : Session N) (h : Hand) : List TrackedBuffer :=
  handovers s.events ++ h.front ++ s.tx ++ s.pending ++ h.back ++ posted s.queue

structure Streamed (kind : ℕ → Bool) (s : Session N) (h : Hand) : Prop where
  issued : ∀ r ∈ requests s.events, r.2.request ≤ s.ledger.nextId
  increasing : (requests s.events).Pairwise (fun a b => a.2.request < b.2.request)
  kinds : ∀ r ∈ requests s.events, kind r.2.request = r.1
  parked : ∀ item ∈ s.pending, kind item.request = true
  posts : ∀ item ∈ plains s.queue ++ h.reserved, kind item.request = true
  tried : ∀ item, item ∈ tries s.queue ∨ h = .tried item → kind item.request = false
  pressure : s.pending ≠ [] → s.backpressureActive = true
  sent : ∀ plain, ofKind kind plain (handovers s.events ++ h.front) <+: accepted plain s.events
  order : s.closing = false → ∀ plain, ofKind kind plain (s.line h) = accepted plain s.events

theorem mem_posted {item : TrackedBuffer} {queue : List Post} (hi : item ∈ plains queue ∨ item ∈ tries queue) :
    item ∈ posted queue := by
  have hpost : ∀ post : Post, post.plain? = some item ∨ post.tried? = some item → post.item? = some item := by
    intro post hp
    cases post <;> simp_all [Post.plain?, Post.tried?, Post.item?]
  rcases hi with hi | hi
  · obtain ⟨post,hmem,heq⟩ := List.mem_filterMap.mp hi
    exact List.mem_filterMap.mpr ⟨post,hmem,hpost post (.inl heq)⟩
  · obtain ⟨post,hmem,heq⟩ := List.mem_filterMap.mp hi
    exact List.mem_filterMap.mpr ⟨post,hmem,hpost post (.inr heq)⟩

theorem mem_accepted {plain : Bool} {item : TrackedBuffer} {events : List Event} :
    item ∈ accepted plain events ↔ (plain,item) ∈ requests events := by
  simp only [accepted, List.mem_map, List.mem_filter, decide_eq_true_eq]
  constructor
  · rintro ⟨⟨p,i⟩,⟨hmem,rfl⟩,rfl⟩
    exact hmem
  · exact fun hmem => ⟨_,⟨hmem,rfl⟩,rfl⟩

theorem mem_ofKind {item : TrackedBuffer} {items : List TrackedBuffer} (hi : item ∈ items) :
    item ∈ ofKind kind (kind item.request) items := List.mem_filter.mpr ⟨hi,by simp⟩

/-- While the session is open everything in its line was accepted. -/
theorem Streamed.source (hs : s.Streamed kind h) (hopen : s.closing = false) {item : TrackedBuffer}
    (hi : item ∈ s.line h) : (kind item.request,item) ∈ requests s.events := by
  rw [← mem_accepted, ← hs.order hopen]
  exact mem_ofKind hi

/-- What changes hands, or is dropped by a session that closes. -/
theorem Streamed.relay (hs : s.Streamed kind h) (hnext : t.ledger.nextId = s.ledger.nextId)
    (hrequests : requests t.events = requests s.events) (hparked : ∀ item ∈ t.pending, kind item.request = true)
    (hposts : ∀ item ∈ plains t.queue ++ k.reserved, item ∈ plains s.queue ++ h.reserved)
    (htried : ∀ item, item ∈ tries t.queue ∨ k = .tried item → item ∈ tries s.queue ∨ h = .tried item)
    (hpressure : t.pending ≠ [] → t.backpressureActive = true)
    (hsent : ∀ plain, ofKind kind plain (handovers t.events ++ k.front) <+: accepted plain s.events)
    (horder : t.closing = false →
      s.closing = false ∧ ∀ plain, ofKind kind plain (t.line k) = ofKind kind plain (s.line h)) :
    t.Streamed kind k := by
  have haccepted : ∀ plain, accepted plain t.events = accepted plain s.events := fun plain => by
    rw [accepted, hrequests, accepted]
  constructor
  · rw [hrequests, hnext]
    exact hs.issued
  · rw [hrequests]
    exact hs.increasing
  · rw [hrequests]
    exact hs.kinds
  · exact hparked
  · exact fun item hi => hs.posts item (hposts item hi)
  · exact fun item hi => hs.tried item (htried item hi)
  · exact hpressure
  · exact fun plain => (haccepted plain).symm ▸ hsent plain
  · intro ht plain
    obtain ⟨hopen,hline⟩ := horder ht
    rw [haccepted, hline plain, hs.order hopen plain]

/-- The hand and the events stay, and so does the line. -/
theorem Streamed.hold (hs : s.Streamed kind h) (hnext : t.ledger.nextId = s.ledger.nextId)
    (hevents : t.events = s.events)
    (hposts : plains t.queue = plains s.queue) (htries : tries t.queue = tries s.queue)
    (hposted : posted t.queue = posted s.queue) (htx : t.tx = s.tx) (hpending : t.pending = s.pending)
    (hactive : t.backpressureActive = s.backpressureActive) (hclosing : t.closing = false → s.closing = false) :
    t.Streamed kind h := by
  refine hs.relay hnext (by rw [hevents]) ?_ (by simp [hposts]) (by simp [htries]) ?_ ?_ ?_
  · rw [hpending]
    exact hs.parked
  · rw [hpending, hactive]
    exact hs.pressure
  · rw [hevents]
    exact hs.sent
  · intro ht
    refine ⟨hclosing ht,fun plain => ?_⟩
    simp only [line, hevents, htx, hpending, hposted]

/-- The oldest post goes into the hand. -/
theorem Streamed.take (hs : s.Streamed kind .empty) {post : Post} {rest : List Post} (hqueue : s.queue = post :: rest) :
    ({ s with queue := rest } : Session N).Streamed kind post.hand := by
  refine hs.relay rfl rfl hs.parked ?_ ?_ hs.pressure ?_ (fun ht => ⟨ht,fun plain => ?_⟩)
  · intro item hi
    rw [hqueue, plains_cons]
    simp only [List.mem_append] at hi ⊢
    tauto
  · intro item hi
    left
    rw [hqueue, tries_cons, List.mem_append]
    refine hi.symm.imp_left (fun hhand => ?_)
    rw [hhand]
    exact List.mem_cons_self
  · intro plain
    rw [post.hand_front]
    exact hs.sent plain
  · have hempty : Hand.empty.front = [] ∧ Hand.empty.back = [] := ⟨rfl,rfl⟩
    simp [line, hqueue, posted_cons, hempty.1, hempty.2]

/-- An event that shows no request and no batch. -/
theorem Streamed.emit (hs : s.Streamed kind h) {event : Event} (hshows : s.Shows h event) :
    (s.emit event).Streamed kind h := by
  have hquiet : requests [event] = [] ∧ handovers [event] = [] := by
    cases event <;> first | exact ⟨rfl,rfl⟩ | exact hshows.elim
  refine hs.relay rfl ?_ hs.parked (fun _ => id) (fun _ => id) hs.pressure ?_ (fun ht => ⟨ht,fun plain => ?_⟩)
  · simp [Session.emit, hquiet.1]
  · simpa [Session.emit, hquiet.2] using hs.sent
  · simp [line, Session.emit, hquiet.2]

theorem Streamed.leave {announce : Bool} (hs : s.Streamed kind (.leaving announce)) :
    ({ s with events := s.events ++ if announce then [.closed] else [] } : Session N).Streamed kind .empty := by
  have hquiet : requests (if announce then [Event.closed] else []) = [] ∧
      handovers (if announce then [Event.closed] else []) = [] := by
    cases announce <;> exact ⟨rfl,rfl⟩
  refine hs.relay rfl ?_ hs.parked (fun _ => id) ?_ hs.pressure ?_ (fun ht => ⟨ht,fun plain => ?_⟩)
  · simp [hquiet.1]
  · simp
  · simpa [hquiet.2, Hand.front] using hs.sent
  · simp [line, hquiet.2, Hand.front, Hand.back]

theorem Streamed.park {item : TrackedBuffer} (hs : s.Streamed kind (.plain item)) (hactive : s.backpressureActive = true)
    (counters : Counters) :
    ({ s with counters := counters, pending := s.pending ++ [item] } : Session N).Streamed kind .empty := by
  refine hs.relay rfl rfl ?_ ?_ (by simp) (fun _ => hactive) hs.sent (fun ht => ⟨ht,fun plain => ?_⟩)
  · intro i hi
    rcases List.mem_append.mp hi with hi | hi
    · exact hs.parked i hi
    · exact hs.posts i (List.mem_append_right _ hi)
  · simp [Hand.reserved]
    tauto
  · simp [line, Hand.front, Hand.back]

/-- Without pressure nothing is parked, and a plain write joins the line at its end. -/
theorem Streamed.enqueue {item : TrackedBuffer} (hs : s.Streamed kind (.plain item))
    (hactive : s.backpressureActive = false) (counters : Counters) :
    ({ s with counters := counters, tx := s.tx ++ [item] } : Session N).Streamed kind .empty := by
  have hnone : s.pending = [] := by
    by_contra hne
    rw [hs.pressure hne] at hactive
    cases hactive
  refine hs.relay rfl rfl hs.parked ?_ (by simp) hs.pressure hs.sent (fun ht => ⟨ht,fun plain => ?_⟩)
  · simp [Hand.reserved]
    tauto
  · simp [line, Hand.front, Hand.back, hnone]

/-- A nonblocking write passes the plain ones that are parked. -/
theorem Streamed.enqueueTried {item : TrackedBuffer} (hs : s.Streamed kind (.tried item)) :
    ({ s with tx := s.tx ++ [item] } : Session N).Streamed kind .empty := by
  refine hs.relay rfl rfl hs.parked (fun _ => id) ?_ hs.pressure hs.sent (fun ht => ⟨ht,fun plain => ?_⟩)
  · simp
    tauto
  · have hswap := ofKind_swap hs.parked (hs.tried item (.inr rfl)) plain
    have hcons : item :: s.pending = [item] ++ s.pending := rfl
    simp only [hcons, ofKind_append] at hswap
    simp only [line, Hand.front, Hand.back, ofKind_append, List.append_assoc, List.nil_append]
    rw [← List.append_assoc (ofKind kind plain [item]), hswap, List.append_assoc]

/-- A batch of the queue goes into the hand, and it is what comes next of either kind. -/
theorem Streamed.begin (hs : s.Streamed kind .empty) (hv : s.ledger.Valid) (hopen : s.isOpen = true) :
    s.begun.Streamed kind (.batch (takeGatherBatch s.tx).1) := by
  have hnext := (hv.retires_beginBatch ((takeGatherBatch s.tx).1.map TrackedBuffer.request)).nextId
  have hline : handovers s.events ++ (takeGatherBatch s.tx).1 <+: s.line .empty := by
    simp only [line, Hand.front, List.append_nil]
    nth_rewrite 2 [← (takeGatherBatch_append s.tx).1]
    simp only [← List.append_assoc]
    simp only [List.append_assoc, List.prefix_append_right_inj]
    exact List.prefix_append _ _
  refine hs.relay hnext rfl hs.parked (fun _ => id) (by simp [begun]) hs.pressure ?_ (fun ht => ⟨ht,fun plain => ?_⟩)
  · intro plain
    have hfirst := ofKind_front kind plain hline
    rw [hs.order (isOpen_iff.mp hopen).2] at hfirst
    exact hfirst
  · have htake := (takeGatherBatch_append s.tx).1
    simp only [line, begun, Hand.front, Hand.back]
    nth_rewrite 3 [← htake]
    simp

theorem Streamed.handOver {buffers : List TrackedBuffer} (hs : s.Streamed kind (.batch buffers)) (op : Option ℕ) :
    ({ s with writeOp := op, events := s.events ++ [.handed buffers] } : Session N).Streamed kind .empty := by
  refine hs.relay rfl ?_ hs.parked (fun _ => id) (by simp) hs.pressure ?_ (fun ht => ⟨ht,fun plain => ?_⟩)
  · simp [requests, Event.request?]
  · simpa [handovers, Event.batch, Hand.front] using hs.sent
  · simp [line, handovers, Event.batch, Hand.front, Hand.back]

theorem mem_line_of_pending {item : TrackedBuffer} (hi : item ∈ s.pending) : item ∈ s.line h := by
  simp only [line, List.mem_append]
  tauto

theorem mem_line_of_posts {item : TrackedBuffer} (hi : item ∈ plains s.queue ++ h.reserved) : item ∈ s.line h := by
  have hplains : item ∈ plains s.queue → item ∈ posted s.queue := fun hi => mem_posted (.inl hi)
  have hback : item ∈ h.reserved → item ∈ h.back := by cases h <;> simp [Hand.reserved, Hand.back]
  simp only [line, List.mem_append] at hi ⊢
  tauto

theorem mem_line_of_tried {item : TrackedBuffer} (hi : item ∈ tries s.queue ∨ h = .tried item) : item ∈ s.line h := by
  have htries : item ∈ tries s.queue → item ∈ posted s.queue := fun hi => mem_posted (.inr hi)
  have hback : h = .tried item → item ∈ h.back := by
    rintro rfl
    exact List.mem_cons_self
  simp only [line, List.mem_append]
  tauto

theorem handed_first (s : Session N) (h : Hand) : handovers s.events ++ h.front <+: s.line h := by
  simp only [line, List.append_assoc]
  exact (List.prefix_append_right_inj _).mpr (List.prefix_append _ _)

theorem accepted_snoc {plain : Bool} {item : TrackedBuffer} (hitem : kind item.request = plain) (events : List Event)
    (b : Bool) : accepted b (events ++ [.accepted plain item]) = accepted b events ++ ofKind kind b [item] := by
  simp only [accepted, requests_append, List.filter_append, List.map_append]
  congr 1
  by_cases hb : plain = b <;> simp [requests, Event.request?, ofKind, hitem, hb]

variable [CommRing N]

theorem line_accept (s : Session N) (h : Hand) (data : List UInt8) (counters : Counters) (plain : Bool) :
    (s.accept data counters plain).1.line h = s.line h ++ [s.newItem data] := by
  rw [accept_eq]
  cases plain <;> simp [line, Post.hand, Hand.back, handovers, Event.batch]

theorem requests_accept (s : Session N) (data : List UInt8) (counters : Counters) (plain : Bool) :
    requests (s.accept data counters plain).1.events = requests s.events ++ [(plain,s.newItem data)] := by
  rw [accept_eq]
  exact requests_append _ _

/-- The next request comes last. -/
theorem Streamed.accept (hs : s.Streamed kind h) (hopen : s.closing = false) (data : List UInt8) (counters : Counters)
    (plain : Bool) : (s.accept data counters plain).1.Streamed (Function.update kind (s.ledger.nextId + 1) plain) h := by
  set kind' := Function.update kind (s.ledger.nextId + 1) plain with hkind
  have hself : kind' (s.newItem data).request = plain := Function.update_self ..
  have hold : ∀ r ∈ requests s.events, kind' r.2.request = kind r.2.request := by
    intro r hr
    have hle := hs.issued r hr
    exact Function.update_of_ne (by omega) _ _
  have hsame : ∀ item ∈ s.line h, kind' item.request = kind item.request :=
    fun item hi => hold _ (hs.source hopen hi)
  have hkinds : ∀ b, ofKind kind' b (s.line h) = accepted b s.events :=
    fun b => (ofKind_congr hsame b).trans (hs.order hopen b)
  constructor
  · intro r hr
    rw [requests_accept, List.mem_append, List.mem_singleton] at hr
    rw [accept_eq]
    rcases hr with hr | rfl
    · exact (hs.issued r hr).trans (Nat.le_succ _)
    · exact le_rfl
  · rw [requests_accept, List.pairwise_append]
    refine ⟨hs.increasing,List.pairwise_singleton _ _,fun a ha b hb => ?_⟩
    rw [List.mem_singleton.mp hb]
    exact Nat.lt_succ_of_le (hs.issued a ha)
  · intro r hr
    rw [requests_accept, List.mem_append, List.mem_singleton] at hr
    rcases hr with hr | rfl
    · rw [hold r hr, hs.kinds r hr]
    · exact hself
  · intro item hi
    rw [hsame item (mem_line_of_pending hi)]
    exact hs.parked item hi
  · intro item hi
    rw [accept_eq] at hi
    have hcases : item ∈ plains s.queue ++ h.reserved ∨ plain = true ∧ item = s.newItem data := by
      cases plain <;> simp [Post.hand, Hand.reserved] at hi ⊢ <;> tauto
    rcases hcases with hold | ⟨rfl,rfl⟩
    · rw [hsame item (mem_line_of_posts hold)]
      exact hs.posts item hold
    · exact hself
  · intro item hi
    rw [accept_eq] at hi
    have hcases : (item ∈ tries s.queue ∨ h = .tried item) ∨ plain = false ∧ item = s.newItem data := by
      cases plain <;> simp [Post.hand, Hand.counted] at hi ⊢ <;> tauto
    rcases hcases with hold | ⟨rfl,rfl⟩
    · rw [hsame item (mem_line_of_tried hold)]
      exact hs.tried item hold
    · exact hself
  · exact hs.pressure
  · intro b
    have hsent := ofKind_front kind' b (handed_first s h)
    rw [hkinds] at hsent
    rw [accept_eq]
    simp only [handovers_append, accepted_snoc hself]
    simpa [handovers, Event.batch] using hsent.trans (List.prefix_append _ _)
  · intro _ b
    rw [line_accept, ofKind_append, hkinds, accept_eq, accepted_snoc hself]

theorem Streamed.grow (hs : s.Streamed kind h) (g : Grow cfg s t) : ∃ kind', t.Streamed kind' h := by
  cases g with
  | accept data plain counters hopen => exact ⟨_,hs.accept (isOpen_iff.mp hopen).2 data counters plain⟩
  | wake | reset | set | aside => exact ⟨kind,hs.hold rfl rfl rfl rfl rfl rfl rfl rfl id⟩
  | halt =>
    rw [endWait_eq]
    exact ⟨kind,hs.hold rfl rfl rfl rfl rfl rfl rfl rfl (fun ht => by cases ht)⟩
  | endWait =>
    rw [endWait_eq]
    exact ⟨kind,hs.hold rfl rfl rfl rfl rfl rfl rfl rfl id⟩
  | post post hhand =>
    refine ⟨kind,hs.hold rfl rfl ?_ ?_ ?_ rfl rfl rfl id⟩
    · simp [Session.post, hhand, Hand.reserved]
    · simp [Session.post, hhand, Hand.counted]
    · simp [Session.post, hhand, Hand.back]
  | complete =>
    refine ⟨kind,hs.hold rfl rfl ?_ ?_ ?_ rfl rfl rfl id⟩
    · simp [Session.post, Post.hand, Hand.reserved]
    · simp [Session.post, Post.hand, Hand.counted]
    · simp [Session.post, Post.hand, Hand.back]

/-- A move admits the next request, or it issues no id. -/
theorem Move.ledger (hv : s.ledger.Valid) (m : Move cfg (s,h) (t,k)) :
    s.ledger.Retires t.ledger ∨
    s.isOpen = true ∧ ∃ bytes, t.ledger = (s.ledger.admitRequest bytes none).1 := by
  have hsame : s.ledger.Retires s.ledger := ⟨hv,fun _ => id,rfl⟩
  cases m with
  | grow s t h g =>
    cases g with
    | accept data plain counters hopen => exact .inr ⟨hopen,data.length,rfl⟩
    | wake | post | complete | set | aside => exact .inl hsame
    | halt reason =>
      rw [endWait_eq]
      exact .inl (Ledger.retires_endAll hv _)
    | endWait =>
      rw [endWait_eq]
      exact .inl hsame
    | reset => exact .inl hv.retires_reset
  | take | emit | dropCallbacks | forget | forgetTried | park | enqueue | enqueueTried | activate | handOver | ignore
  | release | rest | leave => exact .inl hsame
  | refuse => exact .inl (hv.retires_discard _ _)
  | relieve =>
    rw [relieved_eq]
    exact .inl hsame
  | begin => exact .inl (hv.retires_beginBatch _)
  | throwing =>
    rw [lost_eq]
    exact .inl (Ledger.retires_endAll hv _)
  | confirm => exact .inl (hv.retires_completeBatch _ _)
  | fail s bytesToWrite confirmed =>
    have hbatch := hv.retires_completeBatch (s.currentWriteBatch.map (fun item => (item.request,item.size))) confirmed
    have hend := Ledger.retires_endAll hbatch.valid .connectionLoss
    rw [lost_eq]
    exact .inl ⟨hend.valid,fun id hid => hbatch.live id (hend.live id hid),hend.nextId.trans hbatch.nextId⟩
  | shut =>
    rw [shut_eq]
    exact .inl (Ledger.retires_endAll hv _)

theorem Move.valid (hv : s.ledger.Valid) (m : Move cfg (s,h) (t,k)) : t.ledger.Valid := by
  rcases m.ledger hv with hr | ⟨-,bytes,heq⟩
  · exact hr.valid
  · rw [heq]
    exact (hv.admitRequest_live bytes none).1

/-- A session that is lost forgets the batch in hand. -/
theorem Streamed.throwing {buffers : List TrackedBuffer} (hs : s.Streamed kind (.batch buffers)) :
    s.lost.Streamed kind .empty := by
  rw [lost_eq]
  refine hs.relay rfl rfl hs.parked (fun _ => id) (by simp) hs.pressure ?_ (fun ht => by cases ht)
  intro plain
  have hfirst : handovers s.events ++ Hand.empty.front <+: handovers s.events ++ (Hand.batch buffers).front := by
    simp [Hand.front]
  exact (ofKind_front kind plain hfirst).trans (hs.sent plain)

/-- Handlers keep the line; a nonblocking write only goes past parked ones. -/
theorem Streamed.move (hm : s.Metered cfg h) (hv : s.ledger.Valid) (hs : s.Streamed kind h) (m : Move cfg (s,h) (t,k)) :
    ∃ kind', t.Streamed kind' k := by
  have hclosed : ∀ {P : Prop}, s.closing = true → s.closing = false → P := by
    intro P hc ho
    rw [hc] at ho
    cases ho
  cases m with
  | grow s t h g => exact hs.grow g
  | take s post rest hqueue => exact ⟨kind,hs.take hqueue⟩
  | emit s h event hshows => exact ⟨kind,hs.emit hshows⟩
  | leave s announce => exact ⟨kind,hs.leave⟩
  | dropCallbacks => exact ⟨kind,hs.hold rfl rfl rfl rfl rfl rfl rfl rfl id⟩
  | forget s item hc =>
    refine ⟨kind,hs.relay rfl rfl hs.parked ?_ (by simp) hs.pressure hs.sent (fun ht => hclosed hc ht)⟩
    simp [Hand.reserved]
    tauto
  | forgetTried s item hc =>
    refine ⟨kind,hs.relay rfl rfl hs.parked (fun _ => id) ?_ hs.pressure hs.sent (fun ht => hclosed hc ht)⟩
    simp
    tauto
  | ignore s bytesToWrite hc =>
    refine ⟨kind,hs.relay rfl rfl hs.parked (fun _ => id) ?_ hs.pressure hs.sent (fun ht => hclosed hc ht)⟩
    simp
  | refuse s item hfull => exact absurd hfull hm.bounded.not_refused
  | park s item hclean hactive => exact ⟨kind,hs.park hactive _⟩
  | enqueue s item hclean hactive => exact ⟨kind,hs.enqueue hactive _⟩
  | enqueueTried s item hclean => exact ⟨kind,hs.enqueueTried⟩
  | activate => exact ⟨kind,{ hs with pressure := fun _ => rfl }⟩
  | relieve s h =>
    rw [relieved_eq]
    refine ⟨kind,hs.relay rfl rfl (by simp) (fun _ => id) (fun _ => id) (fun hne => absurd rfl hne) hs.sent ?_⟩
    exact fun ht => ⟨ht,fun plain => by simp [line]⟩
  | begin s hopen htx hwriting => exact ⟨kind,hs.begin hv hopen⟩
  | handOver s buffers hbatch => exact ⟨kind,hs.handOver _⟩
  | throwing s buffers => exact ⟨kind,hs.throwing⟩
  | confirm s bytesToWrite confirmed =>
    have hnext :=
      (hv.retires_completeBatch (s.currentWriteBatch.map (fun item => (item.request,item.size))) confirmed).nextId
    exact ⟨kind,hs.relay hnext rfl hs.parked (fun _ => id) (by simp [settled]) hs.pressure hs.sent
      (fun ht => ⟨ht,fun plain => rfl⟩)⟩
  | fail s bytesToWrite confirmed =>
    have hnext :=
      (hv.retires_completeBatch (s.currentWriteBatch.map (fun item => (item.request,item.size))) confirmed).nextId
    rw [lost_eq]
    exact ⟨kind,hs.relay hnext rfl hs.parked (fun _ => id) (by simp [settled]) hs.pressure hs.sent
      (fun ht => by cases ht)⟩
  | release s buffers =>
    exact ⟨kind,hs.relay rfl rfl hs.parked (fun _ => id) (by simp) hs.pressure hs.sent (fun ht => ⟨ht,fun plain => rfl⟩)⟩
  | rest s =>
    exact ⟨kind,hs.relay rfl rfl hs.parked (fun _ => id) (by simp) hs.pressure hs.sent (fun ht => ⟨ht,fun plain => rfl⟩)⟩
  | shut s hclean =>
    rw [shut_eq]
    refine ⟨kind,hs.relay rfl rfl (by simp) (fun _ => id) (by simp) (fun hne => absurd rfl hne) hs.sent ?_⟩
    exact fun ht => by cases ht

omit [CommRing N] in
/-- What holds between two moves of a session, with what the run has shown. -/
structure Sound (cfg : Config) (s : Session N) (h : Hand) : Prop where
  metered : s.Metered cfg h
  valid : s.ledger.Valid
  streamed : ∃ kind, s.Streamed kind h

theorem Sound.move (hs : s.Sound cfg h) (m : Move cfg (s,h) (t,k)) : t.Sound cfg k := by
  obtain ⟨kind,hstream⟩ := hs.streamed
  exact ⟨hs.metered.move _ _ m,m.valid hs.valid,hstream.move hs.metered hs.valid m⟩

theorem Sound.path {p q : Session N × Hand} (hs : p.1.Sound cfg p.2) (m : Path cfg p q) : q.1.Sound cfg q.2 :=
  Path.induct (I := fun p => p.1.Sound cfg p.2) (fun _ _ hp m => hp.move m) hs m

theorem new_sound (cfg : Config) : (new : Session N).Sound cfg .empty where
  metered := new_metered cfg
  valid := Ledger.valid_new
  streamed := ⟨fun _ => true,by simp [new, requests],.nil,by simp [new, requests],by simp [new],
    by simp [new, plains, Hand.reserved],by simp [new, tries],fun hne => absurd rfl hne,fun _ => List.nil_prefix,
    fun _ _ => rfl⟩

theorem run_sound (cfg : Config) (ops : List StepOp) : ((new : Session N).run cfg ops).Sound cfg .empty :=
  (new_sound cfg).path (run_path ops)

omit [CommRing N] in
theorem Streamed.handed (hs : s.Streamed kind h) {item : TrackedBuffer} (hi : item ∈ handovers s.events) :
    (kind item.request,item) ∈ requests s.events := by
  have hfirst :=
    (ofKind_front kind (kind item.request) (List.prefix_append _ h.front)).trans (hs.sent (kind item.request))
  exact mem_accepted.mp (hfirst.subset (mem_ofKind hi))

omit [CommRing N] in
/-- The events tell which writes are of one kind. -/
theorem Streamed.filter_handed (hs : s.Streamed kind h) (plain : Bool) :
    (handovers s.events).filter (fun item => (plain,item) ∈ requests s.events) =
      ofKind kind plain (handovers s.events) := by
  apply List.filter_congr
  intro item hi
  have hmem := hs.handed hi
  by_cases hkind : kind item.request = plain
  · rw [← hkind]
    simpa using hmem
  · have hnot : (plain,item) ∉ requests s.events := fun h => hkind (hs.kinds _ h)
    simp [hkind, hnot]

/-- In every run, whatever calls, failures and pressure there are: requests are numbered as
they are accepted, what is handed to the socket was accepted, and the plain writes that are
handed over are a prefix of the plain ones that were accepted; the nonblocking ones, too. -/
theorem run_streams (cfg : Config) (ops : List StepOp) :
    let s : Session N := new.run cfg ops
    (requests s.events).Pairwise (fun a b => a.2.request < b.2.request) ∧
    (∀ item ∈ handovers s.events, ∃ plain, (plain,item) ∈ requests s.events) ∧
    ∀ plain, (handovers s.events).filter (fun item => (plain,item) ∈ requests s.events) <+: accepted plain s.events := by
  intro s
  have hsound : s.Sound cfg .empty := run_sound cfg ops
  obtain ⟨kind,hs⟩ := hsound.streamed
  refine ⟨hs.increasing,fun item hi => ⟨_,hs.handed hi⟩,fun plain => ?_⟩
  rw [hs.filter_handed]
  simpa [Hand.front] using hs.sent plain

end Session
end Wirestead.Transport.ServerSession
