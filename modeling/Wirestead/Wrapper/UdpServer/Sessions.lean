import Wirestead.Wrapper.UdpServer.State

/-! # The maps of the sessions agree

Every exception that the handler of a datagram catches takes the new session out of all
three maps. One that escapes it leaves an endpoint without a session.
-/
namespace Wirestead.Wrapper.UdpServer
open Transport.TcpClient Transport.UdpChannel

theorem lookup_emplace {K V : Type*} [DecidableEq K] {m : AList (fun _ : K => V)} {k : K} (h : m.lookup k = none)
    (v : V) (k' : K) : (emplace m k v).lookup k' = if k' = k then some v else m.lookup k' := by
  unfold emplace
  rw [if_neg (by simp [h])]
  by_cases hk : k' = k
  · subst hk
    rw [if_pos rfl]
    exact AList.lookup_insert m
  · rw [if_neg hk]
    exact AList.lookup_insert_ne hk

theorem lookup_erase_eq {K V : Type*} [DecidableEq K] (m : AList (fun _ : K => V)) (k k' : K) :
    (m.erase k).lookup k' = if k' = k then none else m.lookup k' := by
  by_cases hk : k' = k
  · subst hk
    rw [if_pos rfl]
    exact AList.lookup_erase k' m
  · rw [if_neg hk]
    exact AList.lookup_erase_ne hk

namespace Server
variable {E : Type*} [DecidableEq E] {s : Server E}

/-- The reaper keeps what the end of each session keeps. -/
theorem runReaper_respects {P : Server E → Prop} (hexpire : ∀ {s}, P s → ∀ id, P (s.expire id)) (h : P s)
    (due : List ℕ) : P (s.runReaper due) := by
  have hfold : P (due.foldl expire s) := by
    induction due generalizing s with
    | nil => exact h
    | cons id due ih => exact ih (hexpire h id)
  unfold runReaper
  split
  · exact h
  · exact hfold

/-- The three maps tell of the same sessions, whose ids were each announced once, and no
lookup of a known endpoint has failed. -/
structure Consistent (s : Server E) : Prop where
  session : ∀ ep id, s.endpointToId.lookup ep = some id → ∃ e, s.sessions.lookup id = some e ∧ e.endpoint = ep
  endpoint : ∀ id e, s.sessions.lookup id = some e → s.endpointToId.lookup e.endpoint = some id
  batch : ∀ id, (s.batches.lookup id).isSome ↔ (s.sessions.lookup id).isSome
  announced : ∀ id, (s.sessions.lookup id).isSome → id ∈ s.announced
  once : s.announced.Nodup
  bounded : ∀ id ∈ s.announced, id < s.nextClientId
  found : s.lookupFailed = false

/-- The maps tell of one more session, which is not announced yet. -/
structure Opening (endpoint : E) (id : ℕ) (s t : Server E) : Prop where
  endpointToId : ∀ ep, t.endpointToId.lookup ep = if ep = endpoint then some id else s.endpointToId.lookup ep
  batches : ∀ k, (t.batches.lookup k).isSome = if k = id then true else (s.batches.lookup k).isSome
  announced : t.announced = s.announced
  nextClientId : t.nextClientId = s.nextClientId + 1
  found : t.lookupFailed = s.lookupFailed

namespace Consistent

theorem free (h : s.Consistent) : s.sessions.lookup s.nextClientId = none ∧ s.batches.lookup s.nextClientId = none := by
  have hs : s.sessions.lookup s.nextClientId = none := by
    refine Option.not_isSome_iff_eq_none.mp (fun hsome => ?_)
    exact absurd (h.bounded _ (h.announced _ hsome)) (lt_irrefl _)
  refine ⟨hs,Option.not_isSome_iff_eq_none.mp (fun hsome => ?_)⟩
  rw [h.batch, hs] at hsome
  cases hsome

/-- What the maps are told by is all that matters. -/
theorem congr {t : Server E} (h : s.Consistent) (he : t.endpointToId = s.endpointToId) (hs : t.sessions = s.sessions)
    (hb : t.batches = s.batches) (ha : t.announced = s.announced) (hn : t.nextClientId = s.nextClientId)
    (hf : t.lookupFailed = s.lookupFailed) : t.Consistent := by
  constructor
  · rw [he, hs]
    exact h.session
  · rw [he, hs]
    exact h.endpoint
  · rw [hb, hs]
    exact h.batch
  · rw [hs, ha]
    exact h.announced
  · rw [ha]
    exact h.once
  · rw [ha, hn]
    exact h.bounded
  · rw [hf]
    exact h.found

theorem deliver (h : s.Consistent) (id : ℕ) (messages : List (List UInt8)) : (s.deliver id messages).Consistent := by
  unfold Server.deliver
  split
  · exact h
  · split
    · exact h.congr rfl rfl rfl rfl rfl rfl
    · exact h

/-- The session is entered and announced. -/
theorem announce (h : s.Consistent) {t : Server E} {endpoint : E} (hep : s.endpointToId.lookup endpoint = none)
    (ht : Opening endpoint s.nextClientId s t) {e : SessionEntry E} (he : e.endpoint = endpoint)
    (hs : ∀ k, t.sessions.lookup k = if k = s.nextClientId then some e else s.sessions.lookup k) :
    ({ t with announced := t.announced ++ [s.nextClientId] } : Server E).Consistent := by
  have hother : ∀ id f, s.sessions.lookup id = some f → f.endpoint ≠ endpoint := by
    intro id f hf hfe
    have hlookup := h.endpoint id f hf
    rw [hfe, hep] at hlookup
    cases hlookup
  constructor
  · intro ep id hid
    rw [ht.endpointToId] at hid
    split at hid
    · rename_i hepe
      cases hid
      exact ⟨e,by rw [hs, if_pos rfl],he.trans hepe.symm⟩
    · obtain ⟨f,hf,hfe⟩ := h.session ep id hid
      refine ⟨f,?_,hfe⟩
      rw [hs, if_neg (fun hk => ?_)]
      · exact hf
      · rw [hk, h.free.1] at hf
        cases hf
  · intro id f hf
    change t.endpointToId.lookup f.endpoint = some id
    rw [hs] at hf
    rw [ht.endpointToId]
    split at hf
    · rename_i hk
      cases hf
      rw [if_pos he, hk]
    · rw [if_neg (hother id f hf)]
      exact h.endpoint id f hf
  · intro id
    rw [ht.batches, hs]
    split
    · exact ⟨fun _ => rfl,fun _ => rfl⟩
    · exact h.batch id
  · intro id hid
    rw [hs] at hid
    change id ∈ t.announced ++ [s.nextClientId]
    rw [ht.announced]
    split at hid
    · rename_i hk
      exact List.mem_append_right _ (List.mem_singleton.mpr hk)
    · exact List.mem_append_left _ (h.announced id hid)
  · change (t.announced ++ [s.nextClientId]).Nodup
    rw [ht.announced, List.nodup_append]
    refine ⟨h.once,List.nodup_singleton _,fun a ha b hb hab => ?_⟩
    rw [List.mem_singleton.mp hb] at hab
    exact absurd (h.bounded a ha) (by omega)
  · intro id hid
    change id < t.nextClientId
    rw [ht.nextClientId]
    obtain hid | hid := List.mem_append.mp hid
    · rw [ht.announced] at hid
      exact Nat.lt_succ_of_lt (h.bounded id hid)
    · rw [List.mem_singleton.mp hid]
      exact Nat.lt_succ_self _
  · exact ht.found.trans h.found

/-- A session that was not announced is taken out of the maps. -/
theorem forget (h : s.Consistent) {t : Server E} {endpoint : E} (hep : s.endpointToId.lookup endpoint = none)
    (ht : Opening endpoint s.nextClientId s t)
    (hs : ∀ k, k ≠ s.nextClientId → t.sessions.lookup k = s.sessions.lookup k) :
    (t.forget endpoint s.nextClientId).Consistent := by
  have hsessions : ∀ k, (t.sessions.erase s.nextClientId).lookup k = s.sessions.lookup k := by
    intro k
    rw [lookup_erase_eq]
    split
    · rename_i hk
      rw [hk, h.free.1]
    · rename_i hk
      exact hs k hk
  have hendpoints : ∀ ep, (t.endpointToId.erase endpoint).lookup ep = s.endpointToId.lookup ep := by
    intro ep
    rw [lookup_erase_eq, ht.endpointToId]
    split
    · rename_i hepe
      rw [hepe, hep]
    · rfl
  constructor
  · intro ep id hid
    obtain ⟨e,hf,hfe⟩ := h.session ep id ((hendpoints ep).symm.trans hid)
    exact ⟨e,(hsessions id).trans hf,hfe⟩
  · intro id e hf
    exact (hendpoints _).trans (h.endpoint id e ((hsessions id).symm.trans hf))
  · intro id
    change ((t.batches.erase s.nextClientId).lookup id).isSome ↔ ((t.sessions.erase s.nextClientId).lookup id).isSome
    rw [hsessions, lookup_erase_eq]
    split
    · rename_i hk
      rw [hk, h.free.1]
      exact Iff.rfl
    · rename_i hk
      rw [ht.batches, if_neg hk]
      exact h.batch id
  · intro id hid
    change id ∈ t.announced
    rw [ht.announced]
    have hid : ((t.sessions.erase s.nextClientId).lookup id).isSome := hid
    rw [hsessions] at hid
    exact h.announced id hid
  · change t.announced.Nodup
    rw [ht.announced]
    exact h.once
  · intro id hid
    change id < t.nextClientId
    rw [ht.nextClientId]
    have hid : id ∈ t.announced := hid
    rw [ht.announced] at hid
    exact Nat.lt_succ_of_lt (h.bounded id hid)
  · exact ht.found.trans h.found

omit [DecidableEq E] in
theorem captureWriteWait_fst (t : Server E) : ∃ channel, t.captureWriteWait.1 = { t with channel := channel } := by
  unfold captureWriteWait
  split
  · exact ⟨_,rfl⟩
  · exact ⟨_,rfl⟩

theorem create (h : s.Consistent) {endpoint : E} (hep : s.endpointToId.lookup endpoint = none) {d : Datagram}
    (hd : d.factory ≠ .throws) : (s.create endpoint d).Consistent := by
  let t : Server E := { s with nextClientId := s.nextClientId + 1
                               endpointToId := emplace s.endpointToId endpoint s.nextClientId
                               batches := emplace s.batches s.nextClientId s.generation }
  obtain ⟨channel,hcapture⟩ := captureWriteWait_fst t
  have hopening : ∀ sessions, Opening endpoint s.nextClientId s { t with channel := channel, sessions := sessions } := by
    intro sessions
    refine ⟨lookup_emplace hep _,fun k => ?_,rfl,rfl,rfl⟩
    change ((emplace s.batches s.nextClientId s.generation).lookup k).isSome = _
    rw [lookup_emplace h.free.2]
    split <;> rfl
  -- entering the session, whatever its framer is
  have henter : ∀ framer, (({ t.captureWriteWait.1 with
      sessions := emplace s.sessions s.nextClientId ⟨endpoint,t.captureWriteWait.2,framer⟩ } : Server E).receive
        endpoint s.nextClientId true d).Consistent := by
    intro framer
    rw [hcapture]
    unfold receive
    split
    · refine Consistent.deliver ?_ _ _
      exact h.announce hep (hopening _) rfl (lookup_emplace h.free.1 _)
    · refine h.forget hep (hopening _) (fun k hk => ?_)
      exact (lookup_emplace h.free.1 _ k).trans (if_neg hk)
  unfold Server.create
  dsimp only
  split
  · exact henter _
  · exact henter _
  · change (t.captureWriteWait.1.forget endpoint s.nextClientId).Consistent
    rw [hcapture]
    exact h.forget hep (hopening s.sessions) (fun _ _ => rfl)
  · rename_i hthrows
    exact absurd hthrows hd

theorem datagram (h : s.Consistent) (cfg : Settings) (endpoint : E) {d : Datagram} (hd : d.factory ≠ .throws) :
    (s.datagram cfg endpoint d).Consistent := by
  have hheard : ({ s with heard := s.heard ++ [endpoint] } : Server E).Consistent := h.congr rfl rfl rfl rfl rfl rfl
  unfold Server.datagram
  split
  · exact h
  · dsimp only
    split
    · rename_i hep
      split
      · exact hheard.create hep hd
      · exact hheard
    · rename_i id hid
      obtain ⟨e,he,-⟩ := h.session endpoint id hid
      obtain ⟨b,hb⟩ := Option.isSome_iff_exists.mp ((h.batch id).mpr (Option.isSome_iff_exists.mpr ⟨e,he⟩))
      rw [hb, he]
      dsimp only
      unfold receive
      split
      · exact hheard.deliver id d.messages
      · exact hheard

theorem expire (h : s.Consistent) (id : ℕ) : (s.expire id).Consistent := by
  unfold Server.expire
  split
  · exact h
  · rename_i e he
    have hep := h.endpoint id e he
    have hsame : ∀ ep k, s.endpointToId.lookup ep = some k → (ep = e.endpoint ↔ k = id) := by
      intro ep k hk
      refine ⟨fun heq => ?_,fun heq => ?_⟩
      · rw [heq, hep] at hk
        exact (Option.some.inj hk).symm
      · obtain ⟨f,hf,hfe⟩ := h.session ep k hk
        rw [heq, he] at hf
        cases hf
        exact hfe.symm
    have hends : ∀ channel, ({ s with channel := channel
                                      endpointToId := s.endpointToId.erase e.endpoint
                                      batches := s.batches.erase id
                                      sessions := s.sessions.erase id } : Server E).Consistent := by
      intro channel
      constructor
      · intro ep k hk
        change (s.endpointToId.erase e.endpoint).lookup ep = some k at hk
        rw [lookup_erase_eq] at hk
        split at hk
        · cases hk
        · rename_i hne
          obtain ⟨f,hf,hfe⟩ := h.session ep k hk
          refine ⟨f,?_,hfe⟩
          change (s.sessions.erase id).lookup k = some f
          rw [lookup_erase_eq, if_neg (fun heq => hne ((hsame ep k hk).mpr heq))]
          exact hf
      · intro k f hf
        change (s.sessions.erase id).lookup k = some f at hf
        change (s.endpointToId.erase e.endpoint).lookup f.endpoint = some k
        rw [lookup_erase_eq] at hf
        split at hf
        · cases hf
        · rename_i hne
          have hk := h.endpoint k f hf
          rw [lookup_erase_eq, if_neg (fun heq => hne ((hsame _ k hk).mp heq))]
          exact hk
      · intro k
        change ((s.batches.erase id).lookup k).isSome ↔ ((s.sessions.erase id).lookup k).isSome
        rw [lookup_erase_eq, lookup_erase_eq]
        split
        · exact Iff.rfl
        · exact h.batch k
      · intro k hk
        change ((s.sessions.erase id).lookup k).isSome at hk
        rw [lookup_erase_eq] at hk
        split at hk
        · cases hk
        · exact h.announced k hk
      · exact h.once
      · exact h.bounded
      · exact h.found
    cases e.wait with
    | none => exact hends s.channel
    | some wait => exact hends _

theorem runReaper (h : s.Consistent) (due : List ℕ) : (s.runReaper due).Consistent :=
  runReaper_respects expire h due

theorem start (h : s.Consistent) : s.start.Consistent := by
  unfold Server.start
  split
  · exact h
  · exact h.congr rfl rfl rfl rfl rfl rfl

theorem stop (h : s.Consistent) (cfg : Settings) (requestOnly : Bool) : (s.stop cfg requestOnly).Consistent := by
  unfold Server.stop
  split
  · exact h.congr rfl rfl rfl rfl rfl rfl
  · exact ⟨nofun,nofun,fun _ => Iff.rfl,nofun,List.nodup_nil,nofun,h.found⟩

end Consistent

theorem consistent_init : (init : Server E).Consistent :=
  ⟨nofun,nofun,fun _ => Iff.rfl,nofun,List.nodup_nil,nofun,rfl⟩

/-- No call of the framer factory throws what the handler does not catch. -/
def CaughtOnly (ops : List (ServerOp E)) : Prop :=
  ∀ endpoint d, .datagram endpoint d ∈ ops → d.factory ≠ .throws

/-- In every state that a run reaches, the maps are in bijection, ids are unique, each
session was announced once, and lookups succeed, as long as the factory throws nothing
but what is caught. -/
theorem maps_stay_consistent (cfg : Settings) (ops : List (ServerOp E)) (h : CaughtOnly ops) :
    ((init : Server E).run cfg ops).Consistent := by
  have hrun : ∀ ops : List (ServerOp E), CaughtOnly ops → ∀ s : Server E, s.Consistent → (s.run cfg ops).Consistent := by
    intro ops
    induction ops with
    | nil => exact fun _ _ h => h
    | cons op ops ih =>
      intro hops s hs
      refine ih (fun ep d hm => hops ep d (List.mem_cons_of_mem _ hm)) _ ?_
      cases op with
      | start => exact hs.start
      | stop requestOnly => exact hs.stop cfg requestOnly
      | datagram endpoint d => exact hs.datagram cfg endpoint (hops endpoint d List.mem_cons_self)
      | reap due => exact hs.runReaper due
  exact hrun ops h init consistent_init

/-- Two endpoints come and one of them expires. -/
theorem maps_consistent_expiry :
    CaughtOnly ([.start,.datagram 7 ⟨true,.framer,.ok,[]⟩,.datagram 8 ⟨true,.badAlloc,.ok,[]⟩,
      .datagram 9 ⟨true,.noFramer,.ok,[]⟩,.reap [1]] : List (ServerOp ℕ)) ∧
    ((init : Server ℕ).run ⟨none,true⟩ [.start,.datagram 7 ⟨true,.framer,.ok,[]⟩,
      .datagram 8 ⟨true,.badAlloc,.ok,[]⟩,.datagram 9 ⟨true,.noFramer,.ok,[]⟩,.reap [1]]).Consistent := by
  have hcaught : CaughtOnly ([.start,.datagram 7 ⟨true,.framer,.ok,[]⟩,.datagram 8 ⟨true,.badAlloc,.ok,[]⟩,
      .datagram 9 ⟨true,.noFramer,.ok,[]⟩,.reap [1]] : List (ServerOp ℕ)) := by
    intro endpoint d hm
    simp only [List.mem_cons, List.not_mem_nil, or_false, reduceCtorEq, false_or, ServerOp.datagram.injEq] at hm
    obtain ⟨-,rfl⟩ | ⟨-,rfl⟩ | ⟨-,rfl⟩ := hm <;> exact nofun
  exact ⟨hcaught,maps_stay_consistent ⟨none,true⟩ _ hcaught⟩

/-- A factory that throws something else leaves its endpoint without a session, and the
next datagram fails. -/
theorem escaped_exception_breaks_maps :
    let s := (init : Server ℕ).run ⟨none,true⟩ [.start,.datagram 7 ⟨true,.throws,.ok,[]⟩]
    s.endpointToId.lookup 7 = some 1 ∧ (s.batches.lookup 1).isSome = true ∧ s.sessions.lookup 1 = none ∧
      (s.datagram ⟨none,true⟩ 7 ⟨true,.framer,.ok,[]⟩).lookupFailed = true ∧ ¬ s.Consistent := by
  intro s
  have hep : s.endpointToId.lookup 7 = some 1 := by decide
  have hs : s.sessions.lookup 1 = none := rfl
  refine ⟨hep,by decide,hs,by decide,fun h => ?_⟩
  obtain ⟨e,he,-⟩ := h.session 7 1 hep
  rw [hs] at he
  cases he

end Server
end Wirestead.Wrapper.UdpServer
