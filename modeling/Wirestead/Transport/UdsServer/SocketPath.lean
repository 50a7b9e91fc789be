import Wirestead.Transport.TcpClient.State

/-! # The socket path of the UDS servers

Any number of servers share one path. The steps of `start` and of the shutdown are
taken one at a time and in any order between servers. What a server knows of the path
is the outcome of its probe and its flag `bound_`; the entry itself may change hands
between two steps.
-/
namespace Wirestead.Transport.UdsServer
open TcpClient

/-- Who made a socket file: a server of the model, or some other process. -/
inductive Creator
  | own (server : ℕ)
  | foreign (listens : Bool)
  deriving DecidableEq, Repr

/-- What is at the path. -/
inductive Entry
  | absent
  | nonSocket
  | socket (creator : Creator)
  deriving DecidableEq, Repr

inductive Acceptor
  | closed
  | opened
  | bound
  | listening
  deriving DecidableEq, Repr

/-- The last step of `start` or of the shutdown that was taken. -/
inductive Phase
  | resting
  | probed
  | removed
  | opened
  | bound
  | closing
  | destroyed
  deriving DecidableEq, Repr

structure Server where
  phase : Phase
  acceptor : Acceptor
  state : LinkState
  bound : Bool
  stopping : Bool
  deriving DecidableEq, Repr

def Server.new : Server := ⟨.resting,.closed,.idle,false,false⟩

/-- A step of `start` that fails leaves the link state `Error`. -/
def Server.fail (v : Server) : Server := { v with phase := .resting, state := .error }

structure World where
  entry : Entry
  servers : ℕ → Server

/-- The steps of a server; the flags say that the system call fails. -/
inductive PathOp
  | check (server : ℕ)
  | remove (server : ℕ)
  | openAcceptor (server : ℕ) (fails : Bool)
  | bind (server : ℕ) (fails : Bool)
  | listen (server : ℕ) (fails : Bool)
  | closeAcceptor (server : ℕ)
  | finishCleanup (server : ℕ)
  | destroy (server : ℕ)
  deriving DecidableEq, Repr

def PathOp.server : PathOp → ℕ
  | .check i => i
  | .remove i => i
  | .openAcceptor i _ => i
  | .bind i _ => i
  | .listen i _ => i
  | .closeAcceptor i => i
  | .finishCleanup i => i
  | .destroy i => i

namespace World
variable (w : World)

def init (entry : Entry) : World := ⟨entry,fun _ => .new⟩

/-- A probe of the socket succeeds. -/
def listens : Creator → Bool
  | .own i => decide ((w.servers i).acceptor = .listening)
  | .foreign b => b

/-- `existing_uds_path_blocks_bind`. -/
def existingUdsPathBlocksBind : Bool :=
  match w.entry with
  | .absent => false
  | .nonSocket => true
  | .socket creator => w.listens creator

def setServer (i : ℕ) (v : Server) : World := { w with servers := Function.update w.servers i v }

def unlink : World := { w with entry := .absent }

/-- The first part of `start`, up to the probe. A listening server returns at once. -/
def check (i : ℕ) : World :=
  let v := w.servers i
  if v.phase ≠ .resting ∨ v.state = .listening then w
  else if w.existingUdsPathBlocksBind then w.setServer i { v.fail with stopping := false }
  else w.setServer i { v with phase := .probed, stopping := false }

def remove (i : ℕ) : World :=
  let v := w.servers i
  if v.phase = .probed then (w.setServer i { v with phase := .removed }).unlink else w

/-- An acceptor that is open cannot be opened again. -/
def openAcceptor (i : ℕ) (fails : Bool) : World :=
  let v := w.servers i
  if v.phase ≠ .removed then w
  else if fails ∨ v.acceptor ≠ .closed then w.setServer i v.fail
  else w.setServer i { v with phase := .opened, acceptor := .opened }

def bind (i : ℕ) (fails : Bool) : World :=
  let v := w.servers i
  if v.phase ≠ .opened then w
  else if fails ∨ w.entry ≠ .absent then w.setServer i v.fail
  else
    { w.setServer i { v with phase := .bound, acceptor := .bound, bound := true } with
      entry := .socket (.own i) }

def listen (i : ℕ) (fails : Bool) : World :=
  let v := w.servers i
  if v.phase ≠ .bound then w
  else if fails then w.setServer i v.fail
  else w.setServer i { v with phase := .resting, acceptor := .listening, state := .listening }

/-- The first stop of a run: the acceptor is closed and the sessions retire. -/
def closeAcceptor (i : ℕ) : World :=
  let v := w.servers i
  if v.phase ≠ .resting ∨ v.stopping then w
  else w.setServer i { v with phase := .closing, acceptor := .closed, stopping := true }

/-- `finish_cleanup`. -/
def finishCleanup (i : ℕ) : World :=
  let v := w.servers i
  if v.phase ≠ .closing then w
  else
    let w' := w.setServer i { v with phase := .resting, bound := false, state := .idle }
    if v.bound then w'.unlink else w'

/-- The destructor removes the path when no cleanup has done so. -/
def destroy (i : ℕ) : World :=
  let v := w.servers i
  if v.phase ≠ .resting ∧ v.phase ≠ .closing then w
  else
    let w' := w.setServer i { v with phase := .destroyed, acceptor := .closed, bound := false }
    if v.bound then w'.unlink else w'

def step : PathOp → World
  | .check i => w.check i
  | .remove i => w.remove i
  | .openAcceptor i fails => w.openAcceptor i fails
  | .bind i fails => w.bind i fails
  | .listen i fails => w.listen i fails
  | .closeAcceptor i => w.closeAcceptor i
  | .finishCleanup i => w.finishCleanup i
  | .destroy i => w.destroy i

def run (ops : List PathOp) : World := ops.foldl step w

/-- The step calls `std::remove` on the path. -/
def unlinks : PathOp → Bool
  | .remove i => decide ((w.servers i).phase = .probed)
  | .finishCleanup i => decide ((w.servers i).phase = .closing) && (w.servers i).bound
  | .destroy i =>
    decide ((w.servers i).phase = .resting ∨ (w.servers i).phase = .closing) && (w.servers i).bound
  | _ => false

/-- The step deletes a file that is not a socket, or the socket of another server that
listens. -/
def Hijacks (op : PathOp) : Prop :=
  w.unlinks op = true ∧
  (w.entry = .nonSocket ∨ ∃ creator, w.entry = .socket creator ∧ creator ≠ .own op.server ∧ w.listens creator = true)

/-- A server binds while another is between its probe and its removal or has yet to
remove the path it bound, or a probe passes while another is between binding and
listening. -/
def Overlaps : PathOp → Prop
  | .bind i fails => (w.servers i).phase = .opened ∧ fails = false ∧ w.entry = .absent ∧
      ∃ j, j ≠ i ∧ ((w.servers j).bound = true ∨ (w.servers j).phase = .probed)
  | .check i => (w.servers i).phase = .resting ∧ (w.servers i).state ≠ .listening ∧
      w.existingUdsPathBlocksBind = false ∧ ∃ j, j ≠ i ∧ (w.servers j).phase = .bound
  | _ => False

/-- No step of the run falls into a gap of another server. -/
def Separate : World → List PathOp → Prop
  | _, [] => True
  | w, op :: ops => ¬ w.Overlaps op ∧ Separate (w.step op) ops

/-- What a server has bound is still its own, and what it has probed is still stale. -/
structure Owned : Prop where
  bound : ∀ i, (w.servers i).bound = true → w.entry = .absent ∨ w.entry = .socket (.own i)
  fresh : ∀ i, (w.servers i).phase = .bound → w.entry = .socket (.own i)
  listening : ∀ i, (w.servers i).acceptor = .listening → (w.servers i).phase = .resting ∧ w.entry = .socket (.own i)
  probed : ∀ i, (w.servers i).phase = .probed → w.entry = .absent ∨
    ∃ creator, w.entry = .socket creator ∧ w.listens creator = false ∧
      ∀ j, creator = .own j → (w.servers j).phase ≠ .bound

variable {w}

theorem setServer_self (i : ℕ) (v : Server) : (w.setServer i v).servers i = v := Function.update_self ..

theorem setServer_of_ne {i j : ℕ} (h : j ≠ i) (v : Server) : (w.setServer i v).servers j = w.servers j :=
  Function.update_of_ne h ..

/-- What holds of the new server and of every other holds of all. -/
theorem forall_setServer {i : ℕ} {v : Server} {p : ℕ → Server → Prop} (hi : p i v)
    (h : ∀ j, j ≠ i → p j (w.servers j)) : ∀ j, p j ((w.setServer i v).servers j) :=
  (Function.forall_update_iff w.servers (fun j => p j)).mpr ⟨hi,h⟩

/-- No one listens who did not before. -/
theorem listens_setServer {i : ℕ} {v : Server} (hv : v.acceptor = .listening → (w.servers i).acceptor = .listening)
    {creator : Creator} (h : w.listens creator = false) : (w.setServer i v).listens creator = false := by
  cases creator with
  | foreign b => exact h
  | own j =>
    have hj : ¬ (w.servers j).acceptor = .listening := of_decide_eq_false h
    apply decide_eq_false
    by_cases hji : j = i
    · subst hji
      rw [setServer_self]
      exact fun hl => hj (hv hl)
    · rw [setServer_of_ne hji]
      exact hj

namespace Owned

theorem init (entry : Entry) : (World.init entry).Owned := by
  constructor <;> intro i h <;> cases h

/-- A step that leaves the path alone and opens no gap. -/
theorem quiet (h : w.Owned) {i : ℕ} {v : Server} (hb : v.bound = true → (w.servers i).bound = true)
    (hl : v.acceptor = .listening → (w.servers i).acceptor = .listening ∧ v.phase = .resting)
    (hfresh : v.phase ≠ .bound) (hprobed : v.phase ≠ .probed) : (w.setServer i v).Owned where
  bound := forall_setServer (p := fun j v => v.bound = true → w.entry = .absent ∨ w.entry = .socket (.own j))
    (fun hj => h.bound i (hb hj)) (fun j _ => h.bound j)
  fresh := forall_setServer (p := fun j v => v.phase = .bound → w.entry = .socket (.own j))
    (fun hj => absurd hj hfresh) (fun j _ => h.fresh j)
  listening := forall_setServer
    (p := fun j v => v.acceptor = .listening → v.phase = .resting ∧ w.entry = .socket (.own j))
    (fun hj => ⟨(hl hj).2,(h.listening i (hl hj).1).2⟩) (fun j _ => h.listening j)
  probed := by
    refine forall_setServer (p := fun j v => v.phase = .probed → _) (fun hj => absurd hj hprobed) ?_
    intro j _ hj
    refine (h.probed j hj).imp id ?_
    rintro ⟨creator,he,hstale,hgap⟩
    refine ⟨creator,he,listens_setServer (fun hv => (hl hv).1) hstale,?_⟩
    exact forall_setServer (p := fun k v => creator = .own k → v.phase ≠ .bound) (fun _ => hfresh)
      (fun k _ => hgap k)

theorem check (h : w.Owned) (i : ℕ) (ho : ¬ w.Overlaps (.check i)) : (w.check i).Owned := by
  unfold World.check
  dsimp only
  split_ifs with hrest hblock
  · exact h
  · refine h.quiet id (fun hv => ⟨hv,rfl⟩) ?_ ?_ <;> simp [Server.fail]
  · obtain ⟨hphase,hstate⟩ := not_or.mp hrest
    have hphase := not_not.mp hphase
    have hpass : w.existingUdsPathBlocksBind = false := Bool.not_eq_true _ |>.mp hblock
    have hother : ∀ j, j ≠ i → (w.servers j).phase ≠ .bound :=
      fun j hji hj => ho ⟨hphase,hstate,hpass,j,hji,hj⟩
    have hstale : w.entry = .absent ∨ ∃ creator, w.entry = .socket creator ∧ w.listens creator = false := by
      unfold existingUdsPathBlocksBind at hpass
      cases he : w.entry with
      | absent => exact .inl rfl
      | nonSocket =>
        rw [he] at hpass
        cases hpass
      | socket creator =>
        rw [he] at hpass
        exact .inr ⟨creator,rfl,hpass⟩
    have hnot : (w.servers i).acceptor ≠ .listening := by
      intro hl
      obtain he | ⟨creator,he,hquiet⟩ := hstale
      · rw [(h.listening i hl).2] at he
        cases he
      · rw [(h.listening i hl).2] at he
        cases he
        exact of_decide_eq_false hquiet hl
    constructor
    · exact forall_setServer (p := fun j v => v.bound = true → w.entry = .absent ∨ w.entry = .socket (.own j))
        (h.bound i) (fun j _ => h.bound j)
    · exact forall_setServer (p := fun j v => v.phase = .bound → w.entry = .socket (.own j)) nofun
        (fun j _ => h.fresh j)
    · exact forall_setServer
        (p := fun j v => v.acceptor = .listening → v.phase = .resting ∧ w.entry = .socket (.own j))
        (fun hj => absurd hj hnot) (fun j _ => h.listening j)
    · intro j _
      refine hstale.imp id ?_
      rintro ⟨creator,he,hquiet⟩
      refine ⟨creator,he,?_,?_⟩
      · refine listens_setServer ?_ hquiet
        exact id
      · exact forall_setServer (p := fun k v => creator = .own k → v.phase ≠ .bound) nofun
          (fun k hki _ => hother k hki)

/-- The path is removed when no server that is about to listen or listens owns it. -/
theorem of_unlink (hfresh : ∀ i, (w.servers i).phase ≠ .bound) (hl : ∀ i, (w.servers i).acceptor ≠ .listening) :
    w.unlink.Owned where
  bound _ _ := .inl rfl
  fresh i hi := absurd hi (hfresh i)
  listening i hi := absurd hi (hl i)
  probed _ _ := .inl rfl

/-- The probe of a server that has yet to remove the path is not followed by a listener. -/
theorem stale_of_probed (h : w.Owned) {i : ℕ} (hi : (w.servers i).phase = .probed) (j : ℕ) :
    (w.servers j).phase ≠ .bound ∧ (w.servers j).acceptor ≠ .listening := by
  constructor
  · intro hj
    obtain he | ⟨creator,he,-,hgap⟩ := h.probed i hi
    · rw [h.fresh j hj] at he
      cases he
    · rw [h.fresh j hj] at he
      cases he
      exact hgap j rfl hj
  · intro hj
    obtain he | ⟨creator,he,hquiet,-⟩ := h.probed i hi
    · rw [(h.listening j hj).2] at he
      cases he
    · rw [(h.listening j hj).2] at he
      cases he
      exact of_decide_eq_false hquiet hj

/-- While a server has a path to remove, no other is about to listen or listens. -/
theorem alone_of_bound (h : w.Owned) {i : ℕ} (hi : (w.servers i).bound = true) {j : ℕ} (hji : j ≠ i) :
    (w.servers j).phase ≠ .bound ∧ (w.servers j).acceptor ≠ .listening := by
  have hother : w.entry ≠ .socket (.own j) := by
    intro he
    obtain hb | hb := h.bound i hi
    · rw [he] at hb
      cases hb
    · rw [he] at hb
      cases hb
      exact hji rfl
  exact ⟨fun hj => hother (h.fresh j hj),fun hj => hother (h.listening j hj).2⟩

theorem remove (h : w.Owned) (i : ℕ) : (w.remove i).Owned := by
  unfold World.remove
  dsimp only
  split
  · rename_i hi
    have hstale := h.stale_of_probed hi
    refine of_unlink ?_ ?_
    · exact forall_setServer (p := fun _ v => v.phase ≠ .bound) nofun (fun j _ => (hstale j).1)
    · exact forall_setServer (p := fun _ v => v.acceptor ≠ .listening) (hstale i).2 (fun j _ => (hstale j).2)
  · exact h

theorem openAcceptor (h : w.Owned) (i : ℕ) (fails : Bool) : (w.openAcceptor i fails).Owned := by
  unfold World.openAcceptor
  dsimp only
  split_ifs
  · exact h
  · refine h.quiet id (fun hv => ⟨hv,rfl⟩) ?_ ?_ <;> simp [Server.fail]
  · exact h.quiet id nofun nofun nofun

theorem bind (h : w.Owned) (i : ℕ) (fails : Bool) (ho : ¬ w.Overlaps (.bind i fails)) : (w.bind i fails).Owned := by
  unfold World.bind
  dsimp only
  split_ifs with hphase hfails
  · exact h
  · refine h.quiet id (fun hv => ⟨hv,rfl⟩) ?_ ?_ <;> simp [Server.fail]
  · obtain ⟨hf,he⟩ := not_or.mp hfails
    have he := not_not.mp he
    have hother : ∀ j, j ≠ i → (w.servers j).bound ≠ true ∧ (w.servers j).phase ≠ .probed := by
      intro j hji
      have hgap : ¬ ((w.servers j).bound = true ∨ (w.servers j).phase = .probed) :=
        fun hj => ho ⟨not_not.mp hphase,Bool.not_eq_true _ |>.mp hf,he,j,hji,hj⟩
      exact not_or.mp hgap
    constructor
    · exact forall_setServer (p := fun j v => v.bound = true → Entry.socket (.own i) = .absent ∨ _ = _)
        (fun _ => .inr rfl) (fun j hji hj => absurd hj (hother j hji).1)
    · refine forall_setServer (p := fun j v => v.phase = .bound → Entry.socket (.own i) = .socket (.own j))
        (fun _ => rfl) (fun j _ hj => ?_)
      have hsocket := h.fresh j hj
      rw [he] at hsocket
      cases hsocket
    · refine forall_setServer
        (p := fun j v => v.acceptor = .listening → v.phase = .resting ∧ Entry.socket (.own i) = .socket (.own j)) nofun
        (fun j _ hj => ?_)
      have hsocket := (h.listening j hj).2
      rw [he] at hsocket
      cases hsocket
    · exact forall_setServer (p := fun _ v => v.phase = .probed → _) nofun
        (fun j hji hj => absurd hj (hother j hji).2)

theorem listen (h : w.Owned) (i : ℕ) (fails : Bool) : (w.listen i fails).Owned := by
  unfold World.listen
  dsimp only
  split_ifs with hphase hfails
  · exact h
  · refine h.quiet id (fun hv => ⟨hv,rfl⟩) ?_ ?_ <;> simp [Server.fail]
  · have hi := not_not.mp hphase
    have hprobed : ∀ j, (w.servers j).phase ≠ .probed := fun j hj => (h.stale_of_probed hj i).1 hi
    constructor
    · exact forall_setServer (p := fun j v => v.bound = true → w.entry = .absent ∨ w.entry = .socket (.own j))
        (fun _ => .inr (h.fresh i hi)) (fun j _ => h.bound j)
    · exact forall_setServer (p := fun j v => v.phase = .bound → w.entry = .socket (.own j)) nofun
        (fun j _ => h.fresh j)
    · exact forall_setServer
        (p := fun j v => v.acceptor = .listening → v.phase = .resting ∧ w.entry = .socket (.own j))
        (fun _ => ⟨rfl,h.fresh i hi⟩) (fun j _ => h.listening j)
    · exact forall_setServer (p := fun _ v => v.phase = .probed → _) nofun (fun j _ hj => absurd hj (hprobed j))

theorem closeAcceptor (h : w.Owned) (i : ℕ) : (w.closeAcceptor i).Owned := by
  unfold World.closeAcceptor
  dsimp only
  split_ifs
  · exact h
  · exact h.quiet id nofun nofun nofun

/-- A server gives up its flag and, if it was set, removes the path. -/
theorem release (h : w.Owned) {i : ℕ} {v : Server} (hb : v.bound = false) (hfresh : v.phase ≠ .bound)
    (hprobed : v.phase ≠ .probed) (hl : v.acceptor ≠ .listening) :
    (if (w.servers i).bound then (w.setServer i v).unlink else w.setServer i v).Owned := by
  split
  · rename_i hi
    refine of_unlink ?_ ?_
    · exact forall_setServer (p := fun _ v => v.phase ≠ .bound) hfresh (fun j hji => (h.alone_of_bound hi hji).1)
    · exact forall_setServer (p := fun _ v => v.acceptor ≠ .listening) hl
        (fun j hji => (h.alone_of_bound hi hji).2)
  · refine h.quiet (fun hv => ?_) (fun hv => absurd hv hl) hfresh hprobed
    rw [hb] at hv
    cases hv

theorem finishCleanup (h : w.Owned) (i : ℕ) : (w.finishCleanup i).Owned := by
  unfold World.finishCleanup
  dsimp only
  split_ifs with hphase hb
  · exact h
  all_goals
    have hl : (w.servers i).acceptor ≠ .listening := by
      intro hv
      exact hphase (fun hc => by rw [(h.listening i hv).1] at hc; cases hc)
  · have hr := h.release (i := i) (v := { w.servers i with phase := .resting, bound := false, state := .idle }) rfl
      nofun nofun hl
    rwa [if_pos hb] at hr
  · have hr := h.release (i := i) (v := { w.servers i with phase := .resting, bound := false, state := .idle }) rfl
      nofun nofun hl
    rwa [if_neg hb] at hr

theorem destroy (h : w.Owned) (i : ℕ) : (w.destroy i).Owned := by
  unfold World.destroy
  dsimp only
  split_ifs with hphase hb
  · exact h
  · have hr := h.release (i := i) (v := { w.servers i with phase := .destroyed, acceptor := .closed, bound := false })
      rfl nofun nofun nofun
    rwa [if_pos hb] at hr
  · have hr := h.release (i := i) (v := { w.servers i with phase := .destroyed, acceptor := .closed, bound := false })
      rfl nofun nofun nofun
    rwa [if_neg hb] at hr

theorem step (h : w.Owned) (op : PathOp) (ho : ¬ w.Overlaps op) : (w.step op).Owned := by
  cases op with
  | check i => exact h.check i ho
  | remove i => exact h.remove i
  | openAcceptor i fails => exact h.openAcceptor i fails
  | bind i fails => exact h.bind i fails ho
  | listen i fails => exact h.listen i fails
  | closeAcceptor i => exact h.closeAcceptor i
  | finishCleanup i => exact h.finishCleanup i
  | destroy i => exact h.destroy i

theorem run (h : w.Owned) {ops : List PathOp} (hs : w.Separate ops) : (w.run ops).Owned := by
  induction ops generalizing w with
  | nil => exact h
  | cons op ops ih => exact ih (h.step op hs.1) hs.2

/-- Whatever a step removes is stale, or its own. -/
theorem not_hijacks (h : w.Owned) (op : PathOp) : ¬ w.Hijacks op := by
  have hown : ∀ i, (w.servers i).bound = true → ¬ (w.entry = .nonSocket ∨
      ∃ creator, w.entry = .socket creator ∧ creator ≠ .own i ∧ w.listens creator = true) := by
    rintro i hi (he | ⟨creator,he,hne,-⟩)
    · obtain hb | hb := h.bound i hi <;> rw [he] at hb <;> cases hb
    · obtain hb | hb := h.bound i hi
      · rw [he] at hb
        cases hb
      · rw [he] at hb
        cases hb
        exact hne rfl
  rintro ⟨hu,hentry⟩
  cases op with
  | remove i =>
    obtain he | ⟨creator,he,hquiet,-⟩ := h.probed i (of_decide_eq_true hu)
    · obtain hn | ⟨_,hn,-⟩ := hentry <;> rw [he] at hn <;> cases hn
    · obtain hn | ⟨c,hn,-,hl⟩ := hentry
      · rw [he] at hn
        cases hn
      · rw [he] at hn
        cases hn
        rw [hquiet] at hl
        cases hl
  | finishCleanup i => exact hown i (Bool.and_eq_true _ _ |>.mp hu).2 hentry
  | destroy i => exact hown i (Bool.and_eq_true _ _ |>.mp hu).2 hentry
  | check i => cases hu
  | openAcceptor i fails => cases hu
  | bind i fails => cases hu
  | listen i fails => cases hu
  | closeAcceptor i => cases hu

end Owned

theorem Separate.of_append {ops more : List PathOp} (h : w.Separate (ops ++ more)) : w.Separate ops := by
  induction ops generalizing w with
  | nil => trivial
  | cons op ops ih => exact ⟨h.1,ih h.2⟩

/-- When no step falls into a gap of another server, no step deletes what another server
listens on, and the path of a listening server names its own socket. -/
theorem run_keeps_path (entry : Entry) (ops : List PathOp) (h : (World.init entry).Separate ops) :
    (∀ before op after, ops = before ++ op :: after → ¬ ((World.init entry).run before).Hijacks op) ∧
    ∀ before after, ops = before ++ after → ∀ i,
      (((World.init entry).run before).servers i).acceptor = .listening →
        ((World.init entry).run before).entry = .socket (.own i) := by
  constructor
  · rintro before op after rfl
    exact ((Owned.init entry).run h.of_append).not_hijacks op
  · rintro before after rfl i hi
    exact (((Owned.init entry).run h.of_append).listening i hi).2

/-- A whole start of one server, between the probe and the removal of another. -/
def gapOps : List PathOp :=
  [.check 0,.check 1,.remove 1,.openAcceptor 1 false,.bind 1 false,.listen 1 false]

/-- The server that probed first deletes the socket of the one that listens. -/
theorem gap_hijacks : (((World.init .absent).run gapOps).servers 1).acceptor = .listening ∧
    ((World.init .absent).run gapOps).Hijacks (.remove 0) ∧
    (((World.init .absent).run (gapOps ++ [.remove 0])).servers 1).acceptor = .listening ∧
    ((World.init .absent).run (gapOps ++ [.remove 0])).entry = .absent := by
  refine ⟨by decide,⟨by decide,.inr ⟨.own 1,by decide,by decide,by decide⟩⟩,by decide,by decide⟩

/-- One server starts over the stale socket of a process that is gone. -/
def aloneOps : List PathOp :=
  [.check 0,.remove 0,.openAcceptor 0 false,.bind 0 false,.listen 0 false]

theorem alone_keeps_path : (World.init (.socket (.foreign false))).Separate aloneOps ∧
    (((World.init (.socket (.foreign false))).run aloneOps).servers 0).acceptor = .listening ∧
    ((World.init (.socket (.foreign false))).run aloneOps).entry = .socket (.own 0) := by
  have hs : (World.init (.socket (.foreign false))).Separate aloneOps := by
    refine ⟨?_,id,id,?_,id,trivial⟩
    · rintro ⟨-,-,-,j,hj,hbound⟩
      cases hbound
    · rintro ⟨-,-,-,j,hj,hgap⟩
      cases j with
      | zero => exact hj rfl
      | succ j => rcases hgap with hgap | hgap <;> cases hgap
  have hl : (((World.init (.socket (.foreign false))).run aloneOps).servers 0).acceptor = .listening := by decide
  exact ⟨hs,hl,(run_keeps_path _ aloneOps hs).2 aloneOps [] (List.append_nil _).symm 0 hl⟩

end World
end Wirestead.Transport.UdsServer
