import Wirestead.Wrapper.UdpServer.Sessions

/-! # Runs of the UDP server

A session belongs to the run that made it: its framer asks the gate with the generation
of that run, and its wait is that of the run of the channel. A stop that only requests
the shutdown leaves the maps as they are.
-/
namespace Wirestead.Wrapper.UdpServer
open Transport.TcpClient Transport.UdpChannel

theorem lookup_of_emplace {K V : Type*} [DecidableEq K] {m : AList (fun _ : K => V)} {k k' : K} {v x : V}
    (h : (emplace m k v).lookup k' = some x) : k' = k ∧ x = v ∨ m.lookup k' = some x := by
  cases hm : m.lookup k with
  | none =>
    rw [lookup_emplace hm] at h
    split at h
    · rename_i hk
      exact .inl ⟨hk,(Option.some.inj h).symm⟩
    · exact .inr h
  | some y =>
    unfold emplace at h
    rw [if_pos (by rw [hm]; rfl)] at h
    exact .inr h

theorem isSome_emplace {K V : Type*} [DecidableEq K] (m : AList (fun _ : K => V)) (k : K) (v : V) :
    ((emplace m k v).lookup k).isSome := by
  unfold emplace
  split
  · rename_i h
    exact h
  · rw [AList.lookup_insert]
    rfl

theorem isSome_emplace_of_isSome {K V : Type*} [DecidableEq K] {m : AList (fun _ : K => V)} {k' : K}
    (h : (m.lookup k').isSome) (k : K) (v : V) : ((emplace m k v).lookup k').isSome := by
  unfold emplace
  split
  · exact h
  · by_cases hk : k' = k
    · subst hk
      rw [AList.lookup_insert]
      rfl
    · rw [AList.lookup_insert_ne hk]
      exact h

namespace Server
variable {E : Type*} [DecidableEq E] {s : Server E}

/-- The wait of a session is the channel's own and has not been ended. -/
def Waiting (s : Server E) (wait : ℕ) : Prop :=
  ∃ w, s.channel.waits[wait]? = some w ∧ w.endedBy = none ∧ w.sequence = s.channel.generation

/-- A server that runs knows only sessions of this run. -/
structure Current (s : Server E) : Prop where
  gate : s.started = true → s.gateOpen = true
  framer : s.started = true → ∀ id e, s.sessions.lookup id = some e → ∀ g ∈ e.framer, g = s.generation
  waiting : s.started = true → ∀ id e, s.sessions.lookup id = some e → ∀ w ∈ e.wait, s.Waiting w
  own : ∀ id e id' e' w, s.sessions.lookup id = some e → s.sessions.lookup id' = some e' →
    w ∈ e.wait → w ∈ e'.wait → id = id'
  captured : ∀ id e, s.sessions.lookup id = some e → ∀ w ∈ e.wait, w < s.channel.waits.length
  heard : s.started = true → ∀ ep id, s.endpointToId.lookup ep = some id → ep ∈ s.heard
  batch : s.started = true → ∀ id g, s.batches.lookup id = some g → g = s.generation
  below : ∀ id e, s.sessions.lookup id = some e → id < s.nextClientId
  backed : ∀ id e, s.sessions.lookup id = some e → (s.batches.lookup id).isSome

/-- Whenever a run is opened, the maps are empty. -/
def Cleared (cfg : Settings) : Server E → List (ServerOp E) → Prop
  | _, [] => True
  | s, op :: ops => (op = .start → s.started = false → s.endpointToId = ∅ ∧ s.sessions = ∅ ∧ s.batches = ∅) ∧
      Cleared cfg (s.step cfg op) ops

namespace Current

theorem deliver (h : s.Current) (id : ℕ) (messages : List (List UInt8)) : (s.deliver id messages).Current := by
  unfold Server.deliver
  split
  · exact h
  · split
    · exact ⟨h.gate,h.framer,h.waiting,h.own,h.captured,h.heard,h.batch,h.below,h.backed⟩
    · exact h

theorem forget (h : s.Current) (endpoint : E) (id : ℕ) : (s.forget endpoint id).Current := by
  have hsub : ∀ k e, (s.sessions.erase id).lookup k = some e → s.sessions.lookup k = some e := by
    intro k e he
    rw [lookup_erase_eq] at he
    split at he
    · cases he
    · exact he
  constructor
  · exact h.gate
  · exact fun hs k e he => h.framer hs k e (hsub k e he)
  · exact fun hs k e he => h.waiting hs k e (hsub k e he)
  · exact fun k e k' e' w he he' => h.own k e k' e' w (hsub k e he) (hsub k' e' he')
  · exact fun k e he => h.captured k e (hsub k e he)
  · intro hs ep k hk
    change (s.endpointToId.erase endpoint).lookup ep = some k at hk
    rw [lookup_erase_eq] at hk
    split at hk
    · cases hk
    · exact h.heard hs ep k hk
  · intro hs k g hk
    change (s.batches.erase id).lookup k = some g at hk
    rw [lookup_erase_eq] at hk
    split at hk
    · cases hk
    · exact h.batch hs k g hk
  · exact fun k e he => h.below k e (hsub k e he)
  · intro k e he
    change (s.sessions.erase id).lookup k = some e at he
    change ((s.batches.erase id).lookup k).isSome
    rw [lookup_erase_eq] at he ⊢
    split at he
    · cases he
    · rename_i hk
      rw [if_neg hk]
      exact h.backed k e he

theorem captureWriteWait (h : s.Current) : s.captureWriteWait.1.Current := by
  unfold Server.captureWriteWait
  split
  · exact h
  · refine ⟨h.gate,h.framer,fun hs k e he w hw => ?_,h.own,fun k e he w hw => ?_,h.heard,h.batch,h.below,h.backed⟩
    · obtain ⟨v,hv,hrest⟩ := h.waiting hs k e he w hw
      refine ⟨v,?_,hrest⟩
      exact (List.getElem?_append_left (List.getElem?_eq_some_iff.mp hv).1).trans hv
    · have hlt := h.captured k e he w hw
      change w < (s.channel.waits ++ _).length
      rw [List.length_append]
      omega

omit [DecidableEq E] in
/-- What was captured is a wait that no session has. -/
theorem captured_wait {w : ℕ} (hw : w ∈ s.captureWriteWait.2) :
    w = s.channel.waits.length ∧ s.captureWriteWait.1.Waiting w ∧ w < s.captureWriteWait.1.channel.waits.length := by
  unfold Server.captureWriteWait at hw ⊢
  split at hw
  · cases hw
  · rename_i hopen
    rw [if_neg hopen]
    cases hw
    refine ⟨rfl,⟨_,List.getElem?_concat_length,rfl,rfl⟩,?_⟩
    change s.channel.waits.length < (s.channel.waits ++ _).length
    rw [List.length_append]
    exact Nat.lt_succ_self _

/-- A session that is entered belongs to this run. -/
theorem enter (h : s.Current) {id : ℕ} (hid : id < s.nextClientId) (hb : (s.batches.lookup id).isSome)
    (endpoint : E) {framer : Option ℕ} (hf : ∀ g ∈ framer, g = s.generation) :
    ({ s.captureWriteWait.1 with
       sessions := emplace s.sessions id ⟨endpoint,s.captureWriteWait.2,framer⟩ } : Server E).Current := by
  have hcaptured := h.captureWriteWait
  obtain ⟨channel,hcapture⟩ := Consistent.captureWriteWait_fst s
  have hsessions : s.captureWriteWait.1.sessions = s.sessions := by rw [hcapture]
  have hgeneration : s.captureWriteWait.1.generation = s.generation := by rw [hcapture]
  have hnext : s.captureWriteWait.1.nextClientId = s.nextClientId := by rw [hcapture]
  have hbatches : s.captureWriteWait.1.batches = s.batches := by rw [hcapture]
  have hold : ∀ k e, s.sessions.lookup k = some e → ∀ w ∈ e.wait, w < s.channel.waits.length := h.captured
  constructor
  · exact hcaptured.gate
  · intro hs k e he g hg
    obtain ⟨-,rfl⟩ | he := lookup_of_emplace he
    · exact (hf g hg).trans hgeneration.symm
    · exact hcaptured.framer hs k e (hsessions ▸ he) g hg
  · intro hs k e he w hw
    obtain ⟨-,rfl⟩ | he := lookup_of_emplace he
    · exact (captured_wait hw).2.1
    · exact hcaptured.waiting hs k e (hsessions ▸ he) w hw
  · intro k e k' e' w he he' hw hw'
    obtain ⟨hk,rfl⟩ | hlook := lookup_of_emplace he
    · obtain ⟨hk',-⟩ | hlook' := lookup_of_emplace he'
      · exact hk.trans hk'.symm
      · exact absurd (hold k' e' hlook' w hw') (by rw [(captured_wait hw).1]; exact lt_irrefl _)
    · obtain ⟨-,rfl⟩ | hlook' := lookup_of_emplace he'
      · exact absurd (hold k e hlook w hw) (by rw [(captured_wait hw').1]; exact lt_irrefl _)
      · exact h.own k e k' e' w hlook hlook' hw hw'
  · intro k e he w hw
    obtain ⟨-,rfl⟩ | he := lookup_of_emplace he
    · exact (captured_wait hw).2.2
    · exact hcaptured.captured k e (hsessions ▸ he) w hw
  · exact hcaptured.heard
  · exact hcaptured.batch
  · intro k e he
    obtain ⟨rfl,-⟩ | he := lookup_of_emplace he
    · exact hnext ▸ hid
    · exact hcaptured.below k e (hsessions ▸ he)
  · intro k e he
    obtain ⟨rfl,-⟩ | he := lookup_of_emplace he
    · exact hbatches ▸ hb
    · exact hcaptured.backed k e (hsessions ▸ he)

theorem receive (h : s.Current) (endpoint : E) (id : ℕ) (isNew : Bool) (d : Datagram) :
    (s.receive endpoint id isNew d).Current := by
  unfold Server.receive
  split
  · refine Current.deliver ?_ id d.messages
    split
    · exact ⟨h.gate,h.framer,h.waiting,h.own,h.captured,h.heard,h.batch,h.below,h.backed⟩
    · exact h
  · split
    · exact h.forget endpoint id
    · exact h

theorem create (h : s.Current) {endpoint : E} (hheard : endpoint ∈ s.heard) (d : Datagram) :
    (s.create endpoint d).Current := by
  have hinsert : ({ s with nextClientId := s.nextClientId + 1
                           endpointToId := emplace s.endpointToId endpoint s.nextClientId
                           batches := emplace s.batches s.nextClientId s.generation } : Server E).Current := by
    refine ⟨h.gate,h.framer,h.waiting,h.own,h.captured,fun hs ep k hk => ?_,fun hs k g hk => ?_,
      fun k e he => Nat.lt_succ_of_lt (h.below k e he),fun k e he => ?_⟩
    · obtain ⟨rfl,-⟩ | hk := lookup_of_emplace hk
      · exact hheard
      · exact h.heard hs ep k hk
    · obtain ⟨-,rfl⟩ | hk := lookup_of_emplace hk
      · rfl
      · exact h.batch hs k g hk
    · exact isSome_emplace_of_isSome (h.backed k e he) _ _
  have hown := isSome_emplace s.batches s.nextClientId s.generation
  unfold Server.create
  dsimp only
  split
  · refine (hinsert.enter (Nat.lt_succ_self s.nextClientId) hown endpoint ?_).receive endpoint s.nextClientId true d
    intro g hg
    cases hg
    rfl
  · refine (hinsert.enter (Nat.lt_succ_self s.nextClientId) hown endpoint ?_).receive endpoint s.nextClientId true d
    intro g hg
    cases hg
  · exact hinsert.captureWriteWait.forget endpoint s.nextClientId
  · exact hinsert.captureWriteWait

theorem datagram (h : s.Current) (cfg : Settings) (endpoint : E) (d : Datagram) :
    (s.datagram cfg endpoint d).Current := by
  have hheard : ({ s with heard := s.heard ++ [endpoint] } : Server E).Current := by
    refine ⟨h.gate,h.framer,h.waiting,h.own,h.captured,fun hs ep k hk => ?_,h.batch,h.below,h.backed⟩
    exact List.mem_append_left _ (h.heard hs ep k hk)
  unfold Server.datagram
  split
  · exact h
  · dsimp only
    split
    · split
      · exact hheard.create (List.mem_append_right _ List.mem_cons_self) d
      · exact hheard
    · split
      · exact hheard.receive endpoint _ false d
      · exact ⟨hheard.gate,hheard.framer,hheard.waiting,hheard.own,hheard.captured,hheard.heard,
          hheard.batch,hheard.below,hheard.backed⟩

/-- The wait that is ended was that of the session alone. -/
theorem expire (h : s.Current) (id : ℕ) : (s.expire id).Current := by
  unfold Server.expire
  split
  · exact h
  · rename_i e he
    dsimp only
    split
    · exact h.forget e.endpoint id
    · rename_i wait hwait
      have hforget := h.forget e.endpoint id
      have hother : ∀ k f, (s.sessions.erase id).lookup k = some f → ∀ w ∈ f.wait, w ≠ wait := by
        intro k f hf w hw hww
        rw [lookup_erase_eq] at hf
        split at hf
        · cases hf
        · rename_i hne
          exact hne (h.own k f id e w hf he hw (hww ▸ hwait))
      constructor
      · exact hforget.gate
      · exact hforget.framer
      · intro hs k f hf w hw
        obtain ⟨v,hv,hrest⟩ := hforget.waiting hs k f hf w hw
        refine ⟨v,?_,hrest⟩
        change (s.channel.waits.modify wait _)[w]? = some v
        have hv : s.channel.waits[w]? = some v := hv
        rw [List.getElem?_modify, hv]
        exact congrArg some (if_neg (Ne.symm (hother k f hf w hw)))
      · exact hforget.own
      · intro k f hf w hw
        change w < (s.channel.waits.modify wait _).length
        rw [List.length_modify]
        exact hforget.captured k f hf w hw
      · exact hforget.heard
      · exact hforget.batch
      · exact hforget.below
      · exact hforget.backed

theorem runReaper (h : s.Current) (due : List ℕ) : (s.runReaper due).Current :=
  runReaper_respects expire h due

/-- A run that is opened with empty maps. -/
theorem start (h : s.Current)
    (hc : s.started = false → s.endpointToId = ∅ ∧ s.sessions = ∅ ∧ s.batches = ∅) : s.start.Current := by
  unfold Server.start
  split
  · exact h
  · rename_i hs
    obtain ⟨hep,hse,hba⟩ := hc (by simpa using hs)
    constructor
    · exact fun _ => rfl
    · intro _ id e he
      change s.sessions.lookup id = some e at he
      rw [hse] at he
      cases he
    · intro _ id e he
      change s.sessions.lookup id = some e at he
      rw [hse] at he
      cases he
    · exact h.own
    · exact h.captured
    · intro _ ep id hid
      change s.endpointToId.lookup ep = some id at hid
      rw [hep] at hid
      cases hid
    · intro _ id g hg
      change s.batches.lookup id = some g at hg
      rw [hba] at hg
      cases hg
    · exact h.below
    · exact h.backed

theorem stop (h : s.Current) (cfg : Settings) (requestOnly : Bool) : (s.stop cfg requestOnly).Current := by
  unfold Server.stop
  split
  · refine ⟨nofun,nofun,nofun,h.own,fun id e he w hw => ?_,nofun,nofun,h.below,h.backed⟩
    change w < (s.channel.waits.map _).length
    rw [List.length_map]
    exact h.captured id e he w hw
  · exact ⟨nofun,nofun,nofun,nofun,nofun,nofun,nofun,nofun,nofun⟩

theorem run (h : s.Current) (cfg : Settings) {ops : List (ServerOp E)} (hc : Cleared cfg s ops) :
    (s.run cfg ops).Current := by
  induction ops generalizing s with
  | nil => exact h
  | cons op ops ih =>
    refine ih ?_ hc.2
    cases op with
    | start => exact h.start (hc.1 rfl)
    | stop requestOnly => exact h.stop cfg requestOnly
    | datagram endpoint d => exact h.datagram cfg endpoint d
    | reap due => exact h.runReaper due

end Current

theorem current_init : (init : Server E).Current :=
  ⟨nofun,nofun,nofun,nofun,nofun,nofun,nofun,nofun,nofun⟩

/-- Nothing refuses the datagram: neither the limits, for a new endpoint, nor memory. -/
def Taken (s : Server E) (cfg : Settings) (endpoint : E) (d : Datagram) : Prop :=
  d.prepare = .ok ∧ (s.endpointToId.lookup endpoint = none →
    s.admits cfg = true ∧ d.scopeOpens = true ∧ (d.factory = .framer ∨ d.factory = .noFramer))

/-- The runs are isolated, as seen by the user: the first datagram of an endpoint is
announced with a new id, the messages of a session are passed on with the generation of
this run, and no send is rejected for the wait of an earlier run. -/
structure Isolated (cfg : Settings) (s : Server E) : Prop where
  announces : ∀ endpoint ∉ s.heard, ∀ d, s.Taken cfg endpoint d →
    (s.datagram cfg endpoint d).announced = s.announced ++ [s.nextClientId] ∧
      ∃ e, (s.datagram cfg endpoint d).sessions.lookup s.nextClientId = some e ∧ e.endpoint = endpoint
  passesOn : ∀ endpoint d, s.Taken cfg endpoint d → ∀ id e,
    (s.datagram cfg endpoint d).endpointToId.lookup endpoint = some id →
    (s.datagram cfg endpoint d).sessions.lookup id = some e → e.framer ≠ none →
      (s.datagram cfg endpoint d).passedOn = s.passedOn ++ d.messages.map (fun m => (s.generation,id,m))
  writes : ∀ id e, s.sessions.lookup id = some e → s.waitRejection e = none

omit [DecidableEq E] in
theorem deliver_fields (s : Server E) (id : ℕ) (messages : List (List UInt8)) :
    (s.deliver id messages).sessions = s.sessions ∧ (s.deliver id messages).endpointToId = s.endpointToId ∧
      (s.deliver id messages).announced = s.announced := by
  unfold deliver
  split
  · exact ⟨rfl,rfl,rfl⟩
  · split
    · exact ⟨rfl,rfl,rfl⟩
    · exact ⟨rfl,rfl,rfl⟩

omit [DecidableEq E] in
theorem deliver_passedOn {id : ℕ} {e : SessionEntry E} (he : s.sessions.lookup id = some e)
    (hf : ∀ g ∈ e.framer, g = s.generation) (hn : e.framer ≠ none) (hg : s.gateOpen = true)
    (messages : List (List UInt8)) :
    (s.deliver id messages).passedOn = s.passedOn ++ messages.map (fun m => (s.generation,id,m)) := by
  obtain ⟨g,hframer⟩ := Option.ne_none_iff_exists'.mp hn
  have hgen := hf g hframer
  unfold deliver
  rw [he, Option.bind_some, hframer]
  dsimp only
  rw [if_pos ⟨hg,hgen⟩, hgen]

/-- A session that is created is entered with its id and announced, and its messages are
delivered. -/
theorem create_ok (s : Server E) (endpoint : E) {d : Datagram} (hp : d.prepare = .ok)
    (hd : d.factory = .framer ∨ d.factory = .noFramer) : ∃ (t : Server E) (e : SessionEntry E),
      s.create endpoint d = t.deliver s.nextClientId d.messages ∧
      t.endpointToId = emplace s.endpointToId endpoint s.nextClientId ∧
      t.sessions = emplace s.sessions s.nextClientId e ∧ e.endpoint = endpoint ∧ (∀ g ∈ e.framer, g = s.generation) ∧
      t.announced = s.announced ++ [s.nextClientId] ∧ t.gateOpen = s.gateOpen ∧ t.generation = s.generation ∧
      t.passedOn = s.passedOn := by
  obtain ⟨channel,hcapture⟩ := Consistent.captureWriteWait_fst
    ({ s with nextClientId := s.nextClientId + 1
              endpointToId := emplace s.endpointToId endpoint s.nextClientId
              batches := emplace s.batches s.nextClientId s.generation } : Server E)
  unfold create receive
  rw [hp]
  dsimp only
  rw [hcapture]
  obtain hd | hd := hd
  · rw [hd]
    refine ⟨_,_,rfl,rfl,rfl,rfl,fun g hg => ?_,rfl,rfl,rfl,rfl⟩
    cases hg
    rfl
  · rw [hd]
    refine ⟨_,_,rfl,rfl,rfl,rfl,fun g hg => ?_,rfl,rfl,rfl,rfl⟩
    cases hg

/-- The handler of a datagram of a new endpoint. -/
theorem datagram_new (hg : s.gateOpen = true) (hs : s.started = true) {cfg : Settings} {endpoint : E} {d : Datagram}
    (hnew : s.endpointToId.lookup endpoint = none) (hadmits : s.admits cfg = true) (hscope : d.scopeOpens = true) :
    s.datagram cfg endpoint d = ({ s with heard := s.heard ++ [endpoint] } : Server E).create endpoint d := by
  unfold datagram
  rw [if_neg (by simp [hg, hs])]
  dsimp only
  rw [hnew]
  dsimp only
  rw [if_pos (by rw [hscope]; exact (Bool.and_true _).trans hadmits)]

/-- The handler of a datagram of a known endpoint. -/
theorem datagram_known (hg : s.gateOpen = true) (hs : s.started = true) (cfg : Settings) {endpoint : E} {d : Datagram}
    (hp : d.prepare = .ok) {id : ℕ} (hid : s.endpointToId.lookup endpoint = some id)
    (hb : (s.batches.lookup id).isSome) {e : SessionEntry E} (he : s.sessions.lookup id = some e) :
    s.datagram cfg endpoint d = ({ s with heard := s.heard ++ [endpoint] } : Server E).deliver id d.messages := by
  obtain ⟨b,hb⟩ := Option.isSome_iff_exists.mp hb
  unfold datagram receive
  rw [if_neg (by simp [hg, hs])]
  dsimp only
  rw [hid]
  dsimp only
  rw [hb, he, hp]
  rfl

/-- The handler of a datagram of an endpoint without a session. -/
theorem datagram_lost (hg : s.gateOpen = true) (hs : s.started = true) (cfg : Settings) {endpoint : E} (d : Datagram)
    {id : ℕ} (hid : s.endpointToId.lookup endpoint = some id) (he : s.sessions.lookup id = none) :
    s.datagram cfg endpoint d = { s with heard := s.heard ++ [endpoint], lookupFailed := true } := by
  unfold datagram
  rw [if_neg (by simp [hg, hs])]
  dsimp only
  rw [hid]
  dsimp only
  rw [he]
  cases s.batches.lookup id <;> rfl

theorem Current.free (h : s.Current) : s.sessions.lookup s.nextClientId = none := by
  cases he : s.sessions.lookup s.nextClientId with
  | none => rfl
  | some e => exact absurd (h.below _ e he) (lt_irrefl _)

/-- The messages of a datagram reach the callback of this run. -/
theorem Current.passesOn (h : s.Current) (hs : s.started = true) {cfg : Settings} {endpoint : E} {d : Datagram}
    (hd : s.Taken cfg endpoint d) {id : ℕ} {e : SessionEntry E}
    (hid : (s.datagram cfg endpoint d).endpointToId.lookup endpoint = some id)
    (he : (s.datagram cfg endpoint d).sessions.lookup id = some e) (hf : e.framer ≠ none) :
    (s.datagram cfg endpoint d).passedOn = s.passedOn ++ d.messages.map (fun m => (s.generation,id,m)) := by
  have hgate := h.gate hs
  cases hnew : s.endpointToId.lookup endpoint with
  | none =>
    obtain ⟨hadmits,hscope,hfactory⟩ := hd.2 hnew
    obtain ⟨t,e',heq,hte,htsessions,-,hframer,-,hgateOpen,hgeneration,hpassed⟩ :=
      create_ok { s with heard := s.heard ++ [endpoint] } endpoint hd.1 hfactory
    obtain ⟨hds,hde,-⟩ := deliver_fields t s.nextClientId d.messages
    have hentry : t.sessions.lookup s.nextClientId = some e' := by
      rw [htsessions, lookup_emplace h.free, if_pos rfl]
    rw [datagram_new hgate hs hnew hadmits hscope, heq] at hid he ⊢
    rw [hde, hte, lookup_emplace hnew, if_pos rfl] at hid
    cases hid
    rw [hds] at he
    rw [hentry] at he
    cases he
    have hdeliver := deliver_passedOn hentry (hgeneration ▸ hframer) hf (hgateOpen.trans hgate) d.messages
    rw [hpassed, hgeneration] at hdeliver
    exact hdeliver
  | some id' =>
    cases hb : s.sessions.lookup id' with
    | none =>
      rw [datagram_lost hgate hs cfg d hnew hb] at hid he
      rw [show s.endpointToId.lookup endpoint = some id from hid] at hnew
      cases hnew
      rw [show s.sessions.lookup id = some e from he] at hb
      cases hb
    | some e' =>
      rw [datagram_known hgate hs cfg hd.1 hnew (h.backed id' e' hb) hb] at hid he ⊢
      obtain ⟨hds,hde,-⟩ := deliver_fields ({ s with heard := s.heard ++ [endpoint] } : Server E) id' d.messages
      rw [hde] at hid
      rw [hds] at he
      rw [show s.endpointToId.lookup endpoint = some id' from hnew] at hid
      cases hid
      exact deliver_passedOn (s := { s with heard := s.heard ++ [endpoint] }) he (h.framer hs _ e he) hf hgate d.messages

theorem Current.isolated (h : s.Current) (hs : s.started = true) (cfg : Settings) : Isolated cfg s := by
  have hgate := h.gate hs
  constructor
  · intro endpoint hep d hd
    have hnew : s.endpointToId.lookup endpoint = none := by
      cases hid : s.endpointToId.lookup endpoint with
      | none => rfl
      | some id => exact absurd (h.heard hs endpoint id hid) hep
    obtain ⟨hadmits,hscope,hfactory⟩ := hd.2 hnew
    obtain ⟨t,e,heq,-,htsessions,hee,-,htannounced,-⟩ :=
      create_ok { s with heard := s.heard ++ [endpoint] } endpoint hd.1 hfactory
    obtain ⟨hds,-,hda⟩ := deliver_fields t s.nextClientId d.messages
    rw [datagram_new hgate hs hnew hadmits hscope, heq]
    refine ⟨hda.trans htannounced,e,?_,hee⟩
    rw [hds, htsessions, lookup_emplace h.free, if_pos rfl]
  · intro endpoint d hd id e hid he hf
    exact h.passesOn hs hd hid he hf
  · intro id e he
    unfold waitRejection
    cases hw : e.wait with
    | none => rfl
    | some w =>
      obtain ⟨v,hv,hended,hseq⟩ := h.waiting hs id e he w hw
      rw [Option.bind_some, hv]
      dsimp only
      rw [if_neg (by simp [hended, hseq])]

/-- As long as every run is opened with empty maps, the runs are isolated. -/
theorem isolated_of_cleared (cfg : Settings) (ops : List (ServerOp E)) (hc : Cleared cfg (init : Server E) ops) :
    ((init : Server E).run cfg ops).started = true → Isolated cfg ((init : Server E).run cfg ops) :=
  fun hs => (current_init.run cfg hc).isolated hs cfg

/-- A stop that was only requested does not permit a start: one that waits comes first.
`requested` says that none has come yet. -/
def StopsBeforeStart : Bool → List (ServerOp E) → Prop
  | _, [] => True
  | requested, op :: ops => (op = .start → requested = false) ∧
      StopsBeforeStart (match op with | .stop requestOnly => requestOnly | _ => requested) ops

/-- Without a requested stop, a server that does not run knows no session. -/
def Forgotten (requested : Bool) (s : Server E) : Prop :=
  requested = false → s.started = false → s.endpointToId = ∅ ∧ s.sessions = ∅ ∧ s.batches = ∅

theorem started_foldl_expire (s : Server E) (due : List ℕ) : (due.foldl expire s).started = s.started := by
  induction due generalizing s with
  | nil => rfl
  | cons id due ih =>
    refine (ih _).trans ?_
    unfold expire
    split
    · rfl
    · dsimp only
      split <;> rfl

omit [DecidableEq E] in
theorem started_deliver (s : Server E) (id : ℕ) (messages : List (List UInt8)) :
    (s.deliver id messages).started = s.started := by
  unfold deliver
  split
  · rfl
  · split <;> rfl

theorem started_receive (s : Server E) (endpoint : E) (id : ℕ) (isNew : Bool) (d : Datagram) :
    (s.receive endpoint id isNew d).started = s.started := by
  unfold receive
  split
  · rw [started_deliver]
    split <;> rfl
  · split <;> rfl

theorem started_create (s : Server E) (endpoint : E) (d : Datagram) :
    (s.create endpoint d).started = s.started := by
  unfold create
  obtain ⟨channel,hcapture⟩ := Consistent.captureWriteWait_fst
    ({ s with nextClientId := s.nextClientId + 1
              endpointToId := emplace s.endpointToId endpoint s.nextClientId
              batches := emplace s.batches s.nextClientId s.generation } : Server E)
  dsimp only
  rw [hcapture]
  split
  · exact started_receive _ _ _ _ _
  · exact started_receive _ _ _ _ _
  · rfl
  · rfl

/-- Datagrams and the reaper leave a server that does not run as it is, and do not end
a run. -/
theorem Forgotten.step {requested : Bool} (h : s.Forgotten requested) (cfg : Settings) (op : ServerOp E) :
    (s.step cfg op).Forgotten (match op with | .stop requestOnly => requestOnly | _ => requested) := by
  cases op with
  | start =>
    intro hr hs
    dsimp only [Server.step, Server.start] at hs ⊢
    split at hs
    · rw [if_pos ‹_›]
      exact h hr hs
    · cases hs
  | stop requestOnly =>
    intro hr _
    dsimp only at hr
    subst hr
    exact ⟨rfl,rfl,rfl⟩
  | datagram endpoint d =>
    intro hr hs
    dsimp only [Server.step, Server.datagram] at hs ⊢
    split at hs
    · rw [if_pos ‹_›]
      exact h hr hs
    · rename_i hrun
      refine absurd (Or.inr ?_) hrun
      split at hs
      · split at hs
        · rwa [started_create] at hs
        · exact hs
      · split at hs
        · rwa [started_receive] at hs
        · exact hs
  | reap due =>
    intro hr hs
    dsimp only [Server.step, Server.runReaper] at hs ⊢
    split at hs
    · rw [if_pos ‹_›]
      exact h hr hs
    · rename_i hrun
      refine absurd (Or.inr ?_) hrun
      rwa [started_foldl_expire] at hs

theorem Forgotten.cleared {requested : Bool} (h : s.Forgotten requested) (cfg : Settings)
    {ops : List (ServerOp E)} (hops : StopsBeforeStart requested ops) : Cleared cfg s ops := by
  induction ops generalizing s requested with
  | nil => trivial
  | cons op ops ih => exact ⟨fun hop hs => h (hops.1 hop) hs,ih (h.step cfg op) hops.2⟩

/-- As long as a stop that waits comes before every restart, the runs are isolated. -/
theorem runs_isolated (cfg : Settings) (ops : List (ServerOp E)) (hops : StopsBeforeStart false ops) :
    ((init : Server E).run cfg ops).started = true → Isolated cfg ((init : Server E).run cfg ops) := by
  have hinit : (init : Server E).Forgotten false := fun _ _ => ⟨rfl,rfl,rfl⟩
  exact isolated_of_cleared cfg ops (hinit.cleared cfg hops)

/-- A session, a stop that is requested and one that waits, and a new run. -/
theorem runs_isolated_restart :
    StopsBeforeStart false
        ([.start,.datagram 7 ⟨true,.framer,.ok,[]⟩,.stop true,.stop false,.start] : List (ServerOp ℕ)) ∧
      Isolated ⟨none,true⟩ ((init : Server ℕ).run ⟨none,true⟩
        [.start,.datagram 7 ⟨true,.framer,.ok,[]⟩,.stop true,.stop false,.start]) := by
  have hops : StopsBeforeStart false
      ([.start,.datagram 7 ⟨true,.framer,.ok,[]⟩,.stop true,.stop false,.start] : List (ServerOp ℕ)) :=
    ⟨fun _ => rfl,nofun,nofun,nofun,fun _ => rfl,trivial⟩
  exact ⟨hops,runs_isolated ⟨none,true⟩ _ hops rfl⟩

/-- A stop that is only requested leaves the session: in the next run it is not announced
again, its messages are dropped, and sends to it are rejected. -/
theorem requested_stop_keeps_sessions :
    let s := (init : Server ℕ).run ⟨none,true⟩ [.start,.datagram 7 ⟨true,.framer,.ok,[]⟩,.stop true,.start]
    let t := s.datagram ⟨none,true⟩ 7 ⟨true,.framer,.ok,[[1]]⟩
    s.started = true ∧ s.heard = [] ∧ t.announced = s.announced ∧ t.passedOn = s.passedOn ∧
      (∃ e, s.sessions.lookup 1 = some e ∧ s.waitRejection e = some .notReady) ∧ ¬ Isolated ⟨none,true⟩ s := by
  intro s t
  have hannounced : t.announced = s.announced := rfl
  refine ⟨rfl,rfl,hannounced,rfl,⟨_,rfl,rfl⟩,fun h => ?_⟩
  have hnew := (h.announces 7 (by exact nofun) ⟨true,.framer,.ok,[[1]]⟩ ⟨rfl,nofun⟩).1
  rw [show s.datagram ⟨none,true⟩ 7 ⟨true,.framer,.ok,[[1]]⟩ = t from rfl, hannounced] at hnew
  exact absurd (congrArg List.length hnew) (by decide)

end Server
end Wirestead.Wrapper.UdpServer
