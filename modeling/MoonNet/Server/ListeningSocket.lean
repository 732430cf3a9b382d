import MoonNet.Foundation.Runs

/-!
# The listening sockets of a server

The socket is made by `init_sock`, which both the constructor of the acceptor
and `enable_tcp` call, and closed by the destructor of the acceptor alone.  Each
socket that is made has the number of no open one; where `Socket`, `Bind` or
`Listen` fails, the process exits.  Until `enable_tcp` is called, `ev_` is not
initialized, and the destructor deletes it all the same.
-/

namespace MoonNet

open Foundation

namespace ListeningSocket

/-- `none` for `lfd_` and `ev_` as long as they are not initialized. -/
structure Acceptor where
  lfd : Option Nat
  ev : Option Nat
  shutdown : Bool
deriving DecidableEq, Repr

/--
A server; `sockets` are the listening sockets it has made that are open, each
with the port it is bound to.
-/
structure Server where
  acceptor : Acceptor
  port : Int
  tcpEnable : Bool
  sockets : List (Nat × Int)
deriving DecidableEq, Repr

namespace Server

/-- `acceptor::init_sock`; `fd` is the descriptor of the new socket. -/
def initSock (s : Server) (port : Int) (fd : Nat) : Option Server :=
  if fd ∈ s.sockets.map Prod.fst then none
  else
    some { s with
      sockets := s.sockets ++ [(fd, port)]
      acceptor := { s.acceptor with lfd := some fd } }

/-- `acceptor::listen` makes a new event for `lfd_`. -/
def listen (s : Server) : Option Server :=
  if s.acceptor.shutdown then
    s.acceptor.lfd.map fun fd =>
      { s with
        acceptor := { s.acceptor with ev := some fd, shutdown := false } }
  else some s

def stop (s : Server) : Server :=
  if s.acceptor.shutdown then s
  else { s with acceptor := { s.acceptor with shutdown := true } }

def enableTcp (s : Server) (port : Int) (fd : Nat) : Option Server :=
  if s.tcpEnable then some s
  else
    (initSock { s with port := port } port fd).bind fun s =>
      s.listen.map fun s : Server => { s with tcpEnable := true }

def enableTcpAccept (s : Server) : Option Server :=
  s.listen

def disableTcpAccept (s : Server) : Server :=
  s.stop

/-- The members before the bodies of the constructors run. -/
def members (port : Int) : Server where
  acceptor := { lfd := none, ev := none, shutdown := true }
  port := port
  tcpEnable := false
  sockets := []

/--
The constructor of the acceptor, then that of the server; `first` and `second`
are the descriptors of the sockets they make.
-/
def construct (port : Int) (first second : Nat) : Option Server :=
  (if port ≠ -1 then (members port).initSock port first
    else some (members port)).bind fun s =>
      if 0 < port then s.enableTcp port second else some s

/--
`~acceptor`: `stop`, `delete ev_` and `close(lfd_)`.  There is no result if one
of the members was never initialized.
-/
def destructAcceptor (s : Server) : Option Server :=
  let s := s.stop
  match s.acceptor.ev, s.acceptor.lfd with
  | some _, some fd =>
      some { s with sockets := s.sockets.filter fun p => p.fst != fd }
  | _, _ => none

/-- The destructor of the server, then that of the acceptor. -/
def destruct (s : Server) : Option Server :=
  (if s.tcpEnable then s.stop else s).destructAcceptor

end Server

/--
The memory of a server before, during and after its lifetime; nothing is known
after a destructor that used a member which was never initialized.
-/
inductive Lifetime where
  | raw
  | alive (s : Server)
  | destroyed (s : Server)
  | undefined
deriving DecidableEq, Repr

inductive Action where
  | construct (port : Int) (first second : Nat)
  | enableTcp (port : Int) (fd : Nat)
  | enableTcpAccept
  | disableTcpAccept
  | destruct
deriving DecidableEq, Repr

def step : Lifetime -> Action -> Option Lifetime
  | Lifetime.raw, Action.construct port first second =>
      (Server.construct port first second).map Lifetime.alive
  | Lifetime.alive s, Action.enableTcp port fd =>
      (s.enableTcp port fd).map Lifetime.alive
  | Lifetime.alive s, Action.enableTcpAccept =>
      s.enableTcpAccept.map Lifetime.alive
  | Lifetime.alive s, Action.disableTcpAccept =>
      some (Lifetime.alive s.disableTcpAccept)
  | Lifetime.alive s, Action.destruct =>
      match s.destruct with
      | none => some Lifetime.undefined
      | some s => some (Lifetime.destroyed s)
  | _, _ => none

/--
At most one listening socket is open, and it is `lfd_`; after the destruction
none is open.
-/
def NoOrphan : Lifetime -> Prop
  | Lifetime.raw => True
  | Lifetime.alive s =>
      s.sockets.length <= 1 ∧
        forall p, p ∈ s.sockets -> s.acceptor.lfd = some p.fst
  | Lifetime.destroyed s => s.sockets = []
  | Lifetime.undefined => False

/-- If the server is destroyed at all, TCP has been enabled before. -/
def EnabledFirst : List Action -> Prop
  | [] => True
  | Action.enableTcp _ _ :: _ => True
  | Action.destruct :: _ => False
  | _ :: rest => EnabledFirst rest

/-!
# Servers constructed without a port
-/

def Enabled (s : Server) : Prop :=
  s.tcpEnable = true ∧ s.acceptor.ev ≠ none ∧
    exists fd port, s.sockets = [(fd, port)] ∧ s.acceptor.lfd = some fd

def Untouched (s : Server) : Prop :=
  s.tcpEnable = false ∧ s.sockets = [] ∧
    s.acceptor = { lfd := none, ev := none, shutdown := true }

theorem Enabled.noOrphan {s : Server} (h : Enabled s) :
    NoOrphan (Lifetime.alive s) := by
  rcases h with ⟨_, _, fd, port, hsockets, hlfd⟩
  constructor
  · rw [hsockets]
    exact Nat.le_refl 1
  · intro p hp
    rw [hsockets, List.mem_singleton] at hp
    rw [hp]
    exact hlfd

theorem Untouched.noOrphan {s : Server} (h : Untouched s) :
    NoOrphan (Lifetime.alive s) := by
  rcases h with ⟨_, hsockets, _⟩
  constructor
  · rw [hsockets]
    exact Nat.zero_le 1
  · intro p hp
    rw [hsockets] at hp
    cases hp

namespace Server

variable {s s' : Server}

theorem initSock_eq {port : Int} {fd : Nat}
    (h : s.initSock port fd = some s') :
    s' = { s with
      sockets := s.sockets ++ [(fd, port)]
      acceptor := { s.acceptor with lfd := some fd } } := by
  unfold initSock at h
  split at h
  · cases h
  · cases h
    rfl

theorem listen_eq (h : s.listen = some s') :
    s'.sockets = s.sockets ∧ s'.acceptor.lfd = s.acceptor.lfd ∧
      s'.tcpEnable = s.tcpEnable ∧
      (s.acceptor.shutdown = true ∨ s.acceptor.ev ≠ none ->
        s'.acceptor.ev ≠ none) := by
  unfold listen at h
  split at h
  · rcases Option.map_eq_some_iff.mp h with ⟨fd, _, hs'⟩
    rw [<- hs']
    exact ⟨rfl, rfl, rfl, fun _ => nofun⟩
  · rename_i hshutdown
    cases h
    exact ⟨rfl, rfl, rfl, fun hev => hev.resolve_left hshutdown⟩

theorem stop_eq (s : Server) :
    s.stop.sockets = s.sockets ∧ s.stop.acceptor.lfd = s.acceptor.lfd ∧
      s.stop.tcpEnable = s.tcpEnable ∧ s.stop.acceptor.ev = s.acceptor.ev := by
  unfold stop
  split
  · exact ⟨rfl, rfl, rfl, rfl⟩
  · exact ⟨rfl, rfl, rfl, rfl⟩

theorem enableTcp_eq {port : Int} {fd : Nat}
    (h : s.enableTcp port fd = some s') (hdisabled : s.tcpEnable = false) :
    s'.sockets = s.sockets ++ [(fd, port)] ∧
      s'.acceptor.lfd = some fd ∧ s'.tcpEnable = true ∧
      (s.acceptor.shutdown = true -> s'.acceptor.ev ≠ none) := by
  unfold enableTcp at h
  rw [hdisabled, if_neg Bool.false_ne_true] at h
  rcases Option.bind_eq_some_iff.mp h with ⟨m, hinit, hrest⟩
  rcases Option.map_eq_some_iff.mp hrest with ⟨n, hlisten, hs'⟩
  have hm := initSock_eq hinit
  rcases listen_eq hlisten with ⟨hsockets, hlfd, _, hev⟩
  rw [<- hs']
  refine ⟨?_, ?_, rfl, ?_⟩
  · show n.sockets = s.sockets ++ [(fd, port)]
    rw [hsockets, hm]
  · show n.acceptor.lfd = some fd
    rw [hlfd, hm]
  · intro hshutdown
    refine hev (Or.inl ?_)
    rw [hm]
    exact hshutdown

theorem destructAcceptor_undefined (h : s.acceptor.ev = none) :
    s.destructAcceptor = none := by
  have hev : s.stop.acceptor.ev = none := (stop_eq s).right.right.right.trans h
  unfold destructAcceptor
  dsimp only
  rw [hev]

theorem destruct_undefined (h : s.acceptor.ev = none) : s.destruct = none := by
  unfold destruct
  split
  · exact destructAcceptor_undefined ((stop_eq s).right.right.right.trans h)
  · exact destructAcceptor_undefined h

end Server

theorem Enabled.of_same {s s' : Server} (h : Enabled s)
    (hsockets : s'.sockets = s.sockets)
    (hlfd : s'.acceptor.lfd = s.acceptor.lfd)
    (henable : s'.tcpEnable = s.tcpEnable) (hev : s'.acceptor.ev ≠ none) :
    Enabled s' := by
  rcases h with ⟨henabled, _, fd, port, hsocket, hfd⟩
  exact ⟨henable.trans henabled, hev, fd, port, hsockets.trans hsocket,
    hlfd.trans hfd⟩

theorem Enabled.stop {s : Server} (h : Enabled s) : Enabled s.stop := by
  rcases Server.stop_eq s with ⟨hsockets, hlfd, henable, hev⟩
  refine h.of_same hsockets hlfd henable ?_
  rw [hev]
  exact h.right.left

theorem Enabled.destruct {s : Server} (h : Enabled s) :
    exists s', s.destruct = some s' ∧ s'.sockets = [] := by
  rcases h.stop.stop with ⟨_, hev, fd, port, hsockets, hlfd⟩
  rcases Option.ne_none_iff_exists'.mp hev with ⟨ev, hev⟩
  unfold Server.destruct Server.destructAcceptor
  rw [if_pos h.left]
  dsimp only
  rw [hev, hlfd, hsockets]
  refine ⟨_, rfl, ?_⟩
  simp

theorem Untouched.enableTcp {s s' : Server} (h : Untouched s) {port : Int}
    {fd : Nat} (hstep : s.enableTcp port fd = some s') : Enabled s' := by
  rcases h with ⟨hdisabled, hsockets, hacceptor⟩
  rcases Server.enableTcp_eq hstep hdisabled with
    ⟨hsockets', hlfd, henabled, hev⟩
  refine ⟨henabled, hev (by rw [hacceptor]), fd, port, ?_, hlfd⟩
  rw [hsockets', hsockets]
  rfl

theorem Untouched.stop {s : Server} (h : Untouched s) : s.stop = s := by
  unfold Server.stop
  rw [h.right.right]
  rfl

def Sound : Lifetime -> Prop
  | Lifetime.alive s => Enabled s
  | Lifetime.destroyed s => s.sockets = []
  | _ => False

theorem Sound.noOrphan {l : Lifetime} (h : Sound l) : NoOrphan l := by
  cases l with
  | raw => trivial
  | alive s => exact Enabled.noOrphan h
  | destroyed s => exact h
  | undefined => exact h

theorem Sound.step {l l' : Lifetime} (h : Sound l) {a : Action}
    (hstep : step l a = some l') : Sound l' := by
  cases l with
  | raw => exact h.elim
  | undefined => exact h.elim
  | destroyed s => cases hstep
  | alive s =>
      have henabled : Enabled s := h
      cases a with
      | construct port first second => cases hstep
      | enableTcp port fd =>
          have hsame : s.enableTcp port fd = some s := by
            unfold Server.enableTcp
            rw [if_pos henabled.left]
          rw [ListeningSocket.step, hsame] at hstep
          cases hstep
          exact h
      | enableTcpAccept =>
          rcases Option.map_eq_some_iff.mp hstep with ⟨m, hm, hl'⟩
          rcases Server.listen_eq hm with ⟨hsockets, hlfd, henable, hev⟩
          rw [<- hl']
          exact henabled.of_same hsockets hlfd henable
            (hev (Or.inr henabled.right.left))
      | disableTcpAccept =>
          cases hstep
          exact henabled.stop
      | destruct =>
          rcases henabled.destruct with ⟨s', hs', hsockets⟩
          rw [ListeningSocket.step, hs'] at hstep
          cases hstep
          exact hsockets

theorem throughout_untouched_iff {s : Server} (h : Untouched s)
    (acts : List Action) {l : Lifetime}
    (hrun : StepFn.run step (Lifetime.alive s) acts = some l) :
    StepFn.Throughout step NoOrphan (Lifetime.alive s) acts <->
      EnabledFirst acts := by
  induction acts with
  | nil =>
      exact ⟨fun _ => trivial, fun _ => h.noOrphan⟩
  | cons a rest ih =>
      rcases StepFn.run_cons_eq_some.mp hrun with ⟨m, hm, hrest⟩
      rw [StepFn.throughout_cons_of_step hm]
      cases a with
      | construct port first second => cases hm
      | enableTcp port fd =>
          rcases Option.map_eq_some_iff.mp hm with ⟨s', hs', hsm⟩
          subst hsm
          refine ⟨fun _ => trivial, fun _ => ⟨h.noOrphan, ?_⟩⟩
          exact StepFn.throughout_of_invariant
            (fun _ _ _ h hstep => h.step hstep) (fun _ h => h.noOrphan)
            (show Sound (Lifetime.alive s') from h.enableTcp hs') rest
      | enableTcpAccept =>
          -- there is no socket to listen on
          have hnone : s.enableTcpAccept = none := by
            unfold Server.enableTcpAccept Server.listen
            rw [h.right.right]
            rfl
          rw [step, hnone] at hm
          cases hm
      | disableTcpAccept =>
          have hsame : m = Lifetime.alive s := by
            have hm : some (Lifetime.alive s.stop) = some m := hm
            rw [h.stop] at hm
            exact (Option.some.inj hm).symm
          subst hsame
          rw [ih hrest]
          exact ⟨fun hall => hall.right, fun hall => ⟨h.noOrphan, hall⟩⟩
      | destruct =>
          have hnone : s.destruct = none :=
            Server.destruct_undefined (by rw [h.right.right])
          rw [step, hnone] at hm
          cases hm
          refine ⟨fun hall => ?_, False.elim⟩
          exact (StepFn.throughout_head hall.right).elim

/-!
# Constructors
-/

theorem construct_untouched {first second : Nat} {s : Server}
    (h : Server.construct (-1) first second = some s) : Untouched s := by
  have hs : some (Server.members (-1)) = some s := h
  cases hs
  exact ⟨rfl, rfl, rfl⟩

theorem construct_sockets {port : Int} {first second : Nat} {s : Server}
    (hport : 0 < port) (h : Server.construct port first second = some s) :
    s.sockets = [(first, port), (second, port)] := by
  have hne : port ≠ -1 := by
    omega
  unfold Server.construct at h
  rw [if_pos hne] at h
  rcases Option.bind_eq_some_iff.mp h with ⟨m, hinit, henable⟩
  rw [if_pos hport] at henable
  have hm := Server.initSock_eq hinit
  have hdisabled : m.tcpEnable = false := by
    rw [hm]
    rfl
  rw [(Server.enableTcp_eq henable hdisabled).left, hm]
  rfl

/--
In every run that begins with the constructor, no state has an orphan listening
socket exactly if the server was constructed without a port and is not destroyed
before TCP has been enabled.
-/
theorem noOrphan_iff_enabledFirst (port : Int) (hport : port = -1 ∨ 0 < port)
    (first second : Nat) (acts : List Action) (l : Lifetime)
    (hrun : StepFn.run step Lifetime.raw
      (Action.construct port first second :: acts) = some l) :
    StepFn.Throughout step NoOrphan Lifetime.raw
        (Action.construct port first second :: acts) <->
      port = -1 ∧ EnabledFirst acts := by
  rcases StepFn.run_cons_eq_some.mp hrun with ⟨m, hm, hrest⟩
  rcases Option.map_eq_some_iff.mp hm with ⟨s, hs, hsm⟩
  subst hsm
  rw [StepFn.throughout_cons_of_step hm]
  rcases hport with hnone | hpos
  · subst hnone
    rw [throughout_untouched_iff (construct_untouched hs) acts hrest]
    exact ⟨fun h => ⟨rfl, h.right⟩, fun h => ⟨trivial, h.right⟩⟩
  · constructor
    · intro h
      have hone : NoOrphan (Lifetime.alive s) :=
        StepFn.throughout_head h.right
      have hlength := hone.left
      rw [construct_sockets hpos hs] at hlength
      exact absurd hlength (Nat.not_succ_le_self 1)
    · intro h
      rw [h.left] at hpos
      exact absurd hpos (by decide)

def enabledLater : List Action :=
  [Action.enableTcp 8080 4, Action.disableTcpAccept, Action.enableTcpAccept,
    Action.enableTcp 8081 5, Action.destruct]

theorem noOrphan_iff_enabledFirst_enabledLater :
    exists s,
      StepFn.run step Lifetime.raw
          (Action.construct (-1) 3 4 :: enabledLater) =
        some (Lifetime.destroyed s) ∧ s.port = 8080 ∧ s.sockets = [] ∧
      StepFn.Throughout step NoOrphan Lifetime.raw
        (Action.construct (-1) 3 4 :: enabledLater) :=
  ⟨_, rfl, rfl, rfl,
    (noOrphan_iff_enabledFirst (-1) (Or.inl rfl) 3 4 enabledLater _ rfl).mpr
      ⟨rfl, trivial⟩⟩

/--
`server(8080)` opens two sockets on the port; `lfd_` is the second one, and the
first one is still open when the server is gone.  The destructor of a `server()`
that never enabled TCP deletes an `ev_` that does not exist.
-/
theorem noOrphan_fails_port :
    (exists s,
      StepFn.run step Lifetime.raw [Action.construct 8080 3 4] =
          some (Lifetime.alive s) ∧
        s.sockets = [(3, 8080), (4, 8080)] ∧ s.acceptor.lfd = some 4 ∧
        ¬ NoOrphan (Lifetime.alive s)) ∧
    (exists s,
      StepFn.run step Lifetime.raw
          [Action.construct 8080 3 4, Action.destruct] =
          some (Lifetime.destroyed s) ∧
        s.sockets = [(3, 8080)] ∧ ¬ NoOrphan (Lifetime.destroyed s)) ∧
    StepFn.run step Lifetime.raw
        [Action.construct (-1) 3 4, Action.destruct] =
      some Lifetime.undefined := by
  refine ⟨⟨_, rfl, rfl, rfl, ?_⟩, ⟨_, rfl, rfl, ?_⟩, rfl⟩
  · intro h
    exact absurd h.left (by decide)
  · intro h
    cases h

end ListeningSocket

end MoonNet
