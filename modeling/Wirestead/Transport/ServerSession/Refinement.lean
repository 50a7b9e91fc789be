import Wirestead.Transport.ServerSession.Closing

/-! # The session that the server knows

`TcpServer.Session` has no queues, no handlers and no callbacks; the operations on its
ledger tell what it writes. Each move of a session is matched by what the server lets its
sessions do.
-/
namespace Wirestead.Transport.ServerSession
open Diagnostics Sizes TcpClient
variable {N : Type*} [CommRing N]

/-- What may happen to a session of the server. -/
inductive Act : TcpServer.Session N → TcpServer.Session N → Prop
  | write (v : TcpServer.Session N) (op : LedgerOp) (counters : Counters) (active : Bool) (hopen : v.isOpen = true)
      (hop : TcpServer.writes op = true) :
    Act v { v.apply op with counters := counters, backpressureActive := active }
  | lose (v : TcpServer.Session N) (hopen : v.isOpen = true) : Act v v.lose
  | requestStop (v : TcpServer.Session N) : Act v v.requestStop
  | doClose (v : TcpServer.Session N) : Act v v.doClose
  | reset (v : TcpServer.Session N) : Act v (v.apply .reset)

abbrev Acts : TcpServer.Session N → TcpServer.Session N → Prop := Relation.ReflTransGen Act

/-- A session and what the server knows of it. -/
structure Refines (s : Session N) (v : TcpServer.Session N) : Prop where
  closing : v.closing = s.closing
  cleanupDone : v.cleanupDone = s.cleanupDone
  ledger : v.ledger = s.ledger
  alive : s.closing = false → v.alive = true
  load : s.closing = false → v.counters = s.counters ∧ v.backpressureActive = s.backpressureActive
  replay : v.ledger = (Ledger.new.run v.history).1

variable {cfg : Config} {s t : Session N} {h k : Hand} {v : TcpServer.Session N}

theorem run_snoc (c : Ledger N) (ops : List LedgerOp) (op : LedgerOp) :
    (c.run (ops ++ [op])).1 = ((c.run ops).1.step op).1 := by
  induction ops generalizing c with
  | nil => rfl
  | cons o ops ih => exact ih _

theorem Refines.replay_apply (hr : Refines s v) (op : LedgerOp) :
    (v.apply op).ledger = (Ledger.new.run (v.apply op).history).1 := by
  have hsnoc := run_snoc (Ledger.new : Ledger N) v.history op
  rw [← hr.replay] at hsnoc
  exact hsnoc.symm

theorem Refines.isOpen (hr : Refines s v) (hc : s.closing = false) : v.isOpen = true := by
  rw [TcpServer.Session.isOpen, hr.alive hc, hr.closing, hc]
  rfl

/-- A session that is open writes. -/
theorem Refines.write (hr : Refines s v) (hc : s.closing = false) (op : LedgerOp) (hop : TcpServer.writes op = true)
    (hledger : t.ledger = (s.ledger.step op).1) (hclosing : t.closing = s.closing)
    (hclean : t.cleanupDone = s.cleanupDone) : ∃ v', Acts v v' ∧ Refines t v' := by
  refine ⟨_,.single (.write v op t.counters t.backpressureActive (hr.isOpen hc) hop),?_⟩
  constructor
  · exact hr.closing.trans hclosing.symm
  · exact hr.cleanupDone.trans hclean.symm
  · rw [hledger, ← hr.ledger]
    rfl
  · exact fun _ => hr.alive hc
  · exact fun _ => ⟨rfl,rfl⟩
  · exact hr.replay_apply op

/-- Where the ledger stays only the load may change: the write of an empty batch. -/
theorem Refines.idle (hr : Refines s v) (hledger : t.ledger = s.ledger) (hclosing : t.closing = s.closing)
    (hclean : t.cleanupDone = s.cleanupDone) : ∃ v', Acts v v' ∧ Refines t v' := by
  cases hc : s.closing with
  | false => exact hr.write hc (.completeBatch [] 0) rfl hledger hclosing hclean
  | true =>
    have ht : t.closing = true := hclosing.trans hc
    exact ⟨v,.refl,hr.closing.trans hclosing.symm,hr.cleanupDone.trans hclean.symm,hr.ledger.trans hledger.symm,
      fun h => by simp [ht] at h,fun h => by simp [ht] at h,hr.replay⟩

/-- An operation that ends the requests leaves a session that is closing. -/
theorem Refines.ended {v' : TcpServer.Session N} (hr : Refines s v) (op : LedgerOp) (hact : Acts v v')
    (hv : v'.closing = true) (hsame : v'.ledger = (v.apply op).ledger ∧ v'.history = (v.apply op).history)
    (hledger : t.ledger = (s.ledger.step op).1) (hclosing : t.closing = true)
    (hclean : v'.cleanupDone = t.cleanupDone) : ∃ v', Acts v v' ∧ Refines t v' := by
  refine ⟨v',hact,hv.trans hclosing.symm,hclean,?_,fun h => by simp [hclosing] at h,fun h => by simp [hclosing] at h,?_⟩
  · rw [hsame.1, hledger, ← hr.ledger]
    rfl
  · rw [hsame.1, hsame.2]
    exact hr.replay_apply op

/-- Each move is matched. -/
theorem Refines.move (hs : s.Sealed cfg h) (hr : Refines s v) (m : Session.Move cfg (s,h) (t,k)) :
    ∃ v', Acts v v' ∧ Refines t v' := by
  cases m with
  | grow s t h g =>
    cases g with
    | accept data plain counters hopen =>
      exact hr.write (Session.isOpen_iff.mp hopen).2 (.admitRequest data.length none) rfl rfl rfl rfl
    | wake | post | complete | set | aside => exact hr.idle rfl rfl rfl
    | endWait =>
      rw [Session.endWait_eq]
      exact hr.idle rfl rfl rfl
    | halt reason =>
      rw [Session.endWait_eq]
      exact hr.ended (.endAll .explicitStop) (.single (.requestStop v)) rfl ⟨rfl,rfl⟩ rfl rfl hr.cleanupDone
    | reset =>
      exact ⟨_,.single (.reset v),hr.closing,hr.cleanupDone,congrArg Ledger.reset hr.ledger,hr.alive,hr.load,
        hr.replay_apply .reset⟩
  | take | emit | dropCallbacks | forget | forgetTried | park | enqueue | enqueueTried | activate | handOver | ignore
  | release | rest | leave => exact hr.idle rfl rfl rfl
  | refuse s item hfull => exact absurd hfull hs.sound.metered.bounded.not_refused
  | relieve =>
    rw [Session.relieved_eq]
    exact hr.idle rfl rfl rfl
  | begin s hopen =>
    exact hr.write (Session.isOpen_iff.mp hopen).2 (.beginBatch ((takeGatherBatch s.tx).1.map TrackedBuffer.request))
      rfl rfl rfl rfl
  | confirm s bytesToWrite confirmed hopen =>
    exact hr.write (Session.isOpen_iff.mp hopen).2
      (.completeBatch (s.currentWriteBatch.map (fun item => (item.request,item.size))) confirmed) rfl rfl rfl rfl
  | throwing s buffers =>
    rw [Session.lost_eq]
    cases hc : s.closing with
    | false =>
      exact hr.ended (.endAll .connectionLoss) (.single (.lose v (hr.isOpen hc))) rfl ⟨rfl,rfl⟩ rfl rfl hr.cleanupDone
    | true =>
      -- the requests have been ended before
      have hcause := hs.sound.valid.endAll_cause (hs.agreed.gone hc) .connectionLoss .explicitStop
      exact hr.ended (.endAll .explicitStop) (.single (.requestStop v)) rfl ⟨rfl,rfl⟩ hcause rfl hr.cleanupDone
  | fail s bytesToWrite confirmed hopen =>
    have hc := (Session.isOpen_iff.mp hopen).2
    obtain ⟨u,hu,hru⟩ := hr.write (t := s.settled confirmed) hc
      (.completeBatch (s.currentWriteBatch.map (fun item => (item.request,item.size))) confirmed) rfl rfl rfl rfl
    rw [Session.lost_eq]
    obtain ⟨w,hw,hrw⟩ := hru.ended (t := { s.settled confirmed with
        ledger := (s.settled confirmed).ledger.endAll .connectionLoss
        closing := true
        waitEndedBy := (s.settled confirmed).waitEndedBy.or (some .notReady) })
      (.endAll .connectionLoss) (.single (.lose u (hru.isOpen hc))) rfl ⟨rfl,rfl⟩ rfl rfl hru.cleanupDone
    exact ⟨w,hu.trans hw,hrw⟩
  | shut s hclean =>
    rw [Session.shut_eq]
    have hclose : v.doClose = { v.apply (.endAll .connectionLoss) with
        alive := false
        closing := true
        cleanupDone := true
        counters := ⟨0,0,v.counters.inflightBytes⟩
        backpressureActive := false } := if_neg (by simp [hr.cleanupDone, hclean])
    exact hr.ended (.endAll .connectionLoss) (.single (.doClose v)) (by rw [hclose]) (by rw [hclose]; exact ⟨rfl,rfl⟩)
      rfl rfl (by rw [hclose])

/-- Whatever its handlers, the socket, the user and other threads do, a session does what the
server lets its sessions do: it is closed and cleaned up with the one that the server knows,
has the same ledger, the replay of its history, and while it is open the same load. -/
theorem run_matched (cfg : Config) (generation : ℕ) (ops : List Session.StepOp) :
    ∃ v : TcpServer.Session N, Acts (.new generation) v ∧ Refines (Session.new.run cfg ops) v := by
  have hpath : Session.Path cfg ((Session.new : Session N),.empty) _ := Session.run_path ops
  suffices hmatched : ∀ p, Session.Path cfg ((Session.new : Session N),.empty) p →
      p.1.Sealed cfg p.2 ∧ ∃ v : TcpServer.Session N, Acts (.new generation) v ∧ Refines p.1 v from (hmatched _ hpath).2
  intro p hp
  induction hp with
  | refl =>
    exact ⟨Session.new_sealed cfg,.new generation,.refl,rfl,rfl,rfl,fun _ => rfl,fun _ => ⟨rfl,rfl⟩,rfl⟩
  | tail _ m ih =>
    obtain ⟨hs,v,hacts,hr⟩ := ih
    obtain ⟨v',hact,hr'⟩ := hr.move hs m
    exact ⟨hs.move m,v',hacts.trans hact,hr'⟩

end Wirestead.Transport.ServerSession
