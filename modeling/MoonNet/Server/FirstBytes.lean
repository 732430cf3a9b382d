import MoonNet.Server.Acceptcb

/-!
# The first bytes of a connection

Bytes that `handle_read` reads before `acceptcb_` has set `readcb_` are kept in
`inbuff_` without anybody being told.  If each test of `readcb_` finds it set,
no bytes are stranded.  If one does not, the threads of the program can go on
such that they are, unless the peer sends more.
-/

namespace MoonNet

open Foundation
open Kernel

namespace Accept

variable {writecb : Bool} {s s' t : Accept}

/-!
# Reported bytes
-/

def Told (s : Accept) : Prop :=
  match s.loop with
  | LoopThread.idle | LoopThread.reading | LoopThread.testEventcb =>
      s.inbuff.contents ≠ [] -> s.reported = true
  | LoopThread.testReadcb | LoopThread.callReadcb | LoopThread.closed => True

theorem start_told : Told start := by
  intro hheld
  exact absurd ValidBuffer.contents_fresh hheld

theorem Told.frame (h : Told s) (hloop : s'.loop = s.loop)
    (hinbuff : s'.inbuff = s.inbuff) (hreported : s'.reported = s.reported) :
    Told s' := by
  unfold Told at h ⊢
  rw [hloop, hinbuff, hreported]
  exact h

theorem acceptorStep_frame (hstep : s.acceptorStep writecb = some s') :
    s'.loop = s.loop ∧ s'.inbuff = s.inbuff ∧ s'.reported = s.reported ∧
      s'.socket = s.socket ∧ s'.eof = s.eof ∧
        s'.bev.closed = s.bev.closed := by
  unfold acceptorStep at hstep
  cases ha : s.acceptor with
  | updateEp =>
      rw [ha] at hstep
      dsimp only at hstep
      split at hstep
      · cases hstep
      · split at hstep <;> cases hstep <;> exact ⟨rfl, rfl, rfl, rfl, rfl, rfl⟩
  | returned =>
      rw [ha] at hstep
      cases hstep
  | _ =>
      rw [ha] at hstep
      cases hstep
      exact ⟨rfl, rfl, rfl, rfl, rfl, rfl⟩

theorem readStep_cases {r : ReadResult} (hstep : s.readStep r = some s') :
    s' = { s with loop := LoopThread.testEventcb } ∨
      s' = { s with loop := LoopThread.idle } ∨
      exists b rest h, s' = { s with
        bev.inbuff := s.inbuff.receive (b :: rest) h
        socket := s.socket.drop (b :: rest).length
        loop := LoopThread.testReadcb
        reported := false } := by
  unfold readStep at hstep
  cases r with
  | received bytes =>
      cases bytes with
      | nil =>
          simp only at hstep
          split at hstep
          · cases hstep
            exact Or.inl rfl
          · cases hstep
      | cons b rest =>
          simp only at hstep
          split at hstep
          · rename_i hle
            split at hstep
            · cases hstep
              exact Or.inr (Or.inr ⟨b, rest, hle, rfl⟩)
            · cases hstep
          · cases hstep
  | failed errno =>
      simp only at hstep
      split at hstep
      · split at hstep
        · cases hstep
        · cases hstep
          exact Or.inr (Or.inl rfl)
      · cases hstep
        exact Or.inl rfl

theorem Told.loopStep (h : Told s) {a : Action} (hset : ReadcbSet s a)
    (hstep : s.loopStep a = some s') : Told s' := by
  unfold Accept.loopStep at hstep
  unfold Told at h
  split at hstep
  · rename_i hloop
    rw [hloop] at h
    split at hstep
    · cases hstep
      exact h
    · cases hstep
  · rename_i hloop
    rw [hloop] at h
    rcases readStep_cases hstep with hs' | hs' | ⟨b, rest, hle, hs'⟩
    · subst hs'
      exact h
    · subst hs'
      exact h
    · subst hs'
      trivial
  · have hreadcb := hset rfl
    cases hstep
    rw [hreadcb]
    trivial
  · cases hstep
    exact fun _ => rfl
  · rename_i hloop
    rw [hloop] at h
    cases hstep
    split
    · trivial
    · exact h
  · cases hstep

theorem Told.step (h : Told s) {a : Action} (hset : ReadcbSet s a)
    (hstep : Accept.step writecb s a = some s') : Told s' := by
  cases a with
  | acceptor =>
      have hframe := acceptorStep_frame hstep
      exact h.frame hframe.left hframe.right.left hframe.right.right.left
  | peerSends bytes =>
      simp only [Accept.step] at hstep
      split at hstep
      · cases hstep
      · cases hstep
        exact h.frame rfl rfl rfl
  | peerEnds =>
      cases hstep
      exact h.frame rfl rfl rfl
  | _ =>
      exact h.loopStep hset hstep

theorem Told.not_stranded (h : Told s) : ¬ Stranded s := by
  intro hstranded
  unfold Told at h
  rw [hstranded.idle] at h
  have hreported := h hstranded.held
  rw [hstranded.unreported] at hreported
  cases hreported

/-!
# Bytes that are missed
-/

/-- How far `acceptcb_` has come, and what the loop thread has read. -/
structure Inv (s : Accept) : Prop where
  opened : s.bev.closed = false
  unregistered : s.acceptor = Acceptor.construct ->
    s.loop = LoopThread.idle ∧ s.edge = false ∧
      s.bev.ev.registered = none
  readcb : s.bev.readcb = false -> s.loop ≠ LoopThread.closed ->
    s.acceptor = Acceptor.construct ∨ s.acceptor = Acceptor.setReadcb
  received : s.loop = LoopThread.testReadcb ->
    s.inbuff.contents ≠ [] ∧ s.reported = false

theorem start_inv : Inv start where
  opened := rfl
  unregistered := fun _ => ⟨rfl, rfl, rfl⟩
  readcb := fun _ _ => Or.inl rfl
  received := fun hloop => LoopThread.noConfusion hloop

theorem Inv.acceptorLater (h : Inv s)
    (hstep : s.acceptorStep writecb = some s')
    (hconstruct : s.acceptor ≠ Acceptor.construct)
    (hset : s.acceptor ≠ Acceptor.setReadcb)
    (hnext : s'.acceptor ≠ Acceptor.construct)
    (hreadcb : s'.bev.readcb = s.bev.readcb) : Inv s' := by
  rcases acceptorStep_frame hstep with
    ⟨hloop, hinbuff, hreported, _, _, hclosed⟩
  constructor
  case opened =>
    exact hclosed.trans h.opened
  case unregistered =>
    exact fun hpc => absurd hpc hnext
  case readcb =>
    rw [hreadcb, hloop]
    intro hunset hopen
    rcases h.readcb hunset hopen with hpc | hpc
    · exact absurd hpc hconstruct
    · exact absurd hpc hset
  case received =>
    rw [hloop, hinbuff, hreported]
    exact h.received

theorem Inv.acceptorStep (h : Inv s)
    (hstep : s.acceptorStep writecb = some s') : Inv s' := by
  have hlater := h.acceptorLater hstep
  unfold Accept.acceptorStep at hstep
  cases ha : s.acceptor with
  | construct =>
      rw [ha] at hstep
      cases hstep
      exact {
        opened := h.opened, received := h.received
        unregistered := fun hconstruct => Acceptor.noConfusion hconstruct
        readcb := fun _ _ => Or.inr rfl }
  | setReadcb =>
      rw [ha] at hstep
      cases hstep
      exact {
        opened := h.opened, received := h.received
        unregistered := fun hconstruct => Acceptor.noConfusion hconstruct
        readcb := fun hunset => Bool.noConfusion hunset }
  | updateEp =>
      rw [ha] at hstep hlater
      dsimp only at hstep
      split at hstep
      · cases hstep
      · split at hstep
        · cases hstep
          exact hlater nofun nofun nofun rfl
        · cases hstep
          exact hlater nofun nofun nofun rfl
  | returned =>
      rw [ha] at hstep
      cases hstep
  | _ =>
      rw [ha] at hstep hlater
      cases hstep
      exact hlater nofun nofun nofun rfl

theorem Inv.moved (h : Inv s) (hopen : s.loop ≠ LoopThread.closed)
    (hconstruct : s.acceptor ≠ Acceptor.construct)
    (hacceptor : s'.acceptor = s.acceptor)
    (hclosed : s'.bev.closed = s.bev.closed)
    (hreadcb : s'.bev.readcb = s.bev.readcb)
    (hreceived : s'.loop = LoopThread.testReadcb ->
      s'.inbuff.contents ≠ [] ∧ s'.reported = false) : Inv s' where
  opened := hclosed.trans h.opened
  unregistered := fun hpc => absurd (hacceptor.symm.trans hpc) hconstruct
  readcb := by
    rw [hreadcb, hacceptor]
    exact fun hunset _ => h.readcb hunset hopen
  received := hreceived

theorem Inv.loopStep (h : Inv s) {a : Action}
    (hstep : s.loopStep a = some s') : Inv s' := by
  have hbusy : s.loop ≠ LoopThread.idle ->
      s.acceptor ≠ Acceptor.construct :=
    fun hbusy hpc => hbusy (h.unregistered hpc).left
  unfold Accept.loopStep at hstep
  split at hstep
  · rename_i hloop
    split at hstep
    · rename_i hedge
      have hconstruct : s.acceptor ≠ Acceptor.construct := by
        intro hpc
        rw [(h.unregistered hpc).right.left] at hedge
        cases hedge
      cases hstep
      exact h.moved (by rw [hloop]; nofun) hconstruct rfl rfl rfl nofun
    · cases hstep
  · rename_i hloop
    have hopen : s.loop ≠ LoopThread.closed := by
      rw [hloop]
      nofun
    have hconstruct := hbusy (by rw [hloop]; nofun)
    rcases readStep_cases hstep with hs' | hs' | ⟨b, rest, hle, hs'⟩
    · subst hs'
      exact h.moved hopen hconstruct rfl rfl rfl nofun
    · subst hs'
      exact h.moved hopen hconstruct rfl rfl rfl nofun
    · subst hs'
      refine h.moved hopen hconstruct rfl rfl rfl fun _ => ⟨?_, rfl⟩
      show (s.inbuff.receive (b :: rest) hle).contents ≠ []
      rw [ValidBuffer.contents_receive]
      exact List.append_ne_nil_of_right_ne_nil _ (List.cons_ne_nil b rest)
  · rename_i hloop
    have hconstruct := hbusy (by rw [hloop]; nofun)
    cases hstep
    refine h.moved (by rw [hloop]; nofun) hconstruct rfl rfl rfl ?_
    split <;> nofun
  · rename_i hloop
    have hconstruct := hbusy (by rw [hloop]; nofun)
    cases hstep
    exact h.moved (by rw [hloop]; nofun) hconstruct rfl rfl rfl nofun
  · rename_i hloop
    have hconstruct := hbusy (by rw [hloop]; nofun)
    cases hstep
    split
    · exact {
        opened := h.opened, received := nofun
        unregistered := fun hpc => absurd hpc hconstruct
        readcb := fun _ hclosed => absurd rfl hclosed }
    · exact h.moved (by rw [hloop]; nofun) hconstruct rfl rfl rfl nofun
  · cases hstep

theorem Inv.notify (h : Inv s) (socket : List UInt8) (eof : Bool) :
    Inv { s with socket := socket, eof := eof }.notify := by
  refine { h with unregistered := fun hpc => ?_ }
  rcases h.unregistered hpc with ⟨hloop, hedge, hnone⟩
  refine ⟨hloop, ?_, hnone⟩
  show (s.edge || (s.bev.ev.registered.isSome && _)) = false
  rw [hedge, hnone]
  rfl

theorem Inv.step (h : Inv s) {a : Action}
    (hstep : Accept.step writecb s a = some s') : Inv s' := by
  cases a with
  | acceptor =>
      exact h.acceptorStep hstep
  | peerSends bytes =>
      simp only [Accept.step] at hstep
      split at hstep
      · cases hstep
      · cases hstep
        exact h.notify (s.socket ++ bytes) s.eof
  | peerEnds =>
      cases hstep
      exact h.notify s.socket true
  | _ =>
      exact h.loopStep hstep

/--
Bytes were read and not reported while `acceptcb_` is still to set `readcb_`, and
the loop thread is about to read again.
-/
structure Missed (s : Accept) : Prop where
  loop : s.loop = LoopThread.reading
  acceptor : s.acceptor = Acceptor.setReadcb
  readcb : s.bev.readcb = false
  opened : s.bev.closed = false
  eof : s.eof = false
  held : s.inbuff.contents ≠ []
  unreported : s.reported = false

theorem missed_of_not_readcbSet (h : Inv s) {a : Action}
    (hset : ¬ ReadcbSet s a) (heof : s.eof = false)
    (hstep : step writecb s a = some s') : Missed s' := by
  have hfound : a = Action.testReadcb ∧ s.bev.readcb = false := by
    unfold ReadcbSet at hset
    push Not at hset
    exact ⟨hset.left, Bool.eq_false_iff.mpr hset.right⟩
  rcases hfound with ⟨ha, hreadcb⟩
  subst ha
  have hloop : s.loop = LoopThread.testReadcb := by
    simp only [step, loopStep] at hstep
    cases hl : s.loop <;> simp [hl] at hstep
    rfl
  simp only [step, loopStep, hloop, hreadcb, Bool.false_eq_true, if_false,
    Option.some.injEq] at hstep
  subst hstep
  rcases h.received hloop with ⟨hheld, hunreported⟩
  have hpc : s.acceptor = Acceptor.setReadcb := by
    rcases h.readcb hreadcb (by rw [hloop]; nofun) with hpc | hpc
    · rw [(h.unregistered hpc).left] at hloop
      cases hloop
    · exact hpc
  exact {
    loop := rfl, acceptor := hpc, readcb := hreadcb, opened := h.opened
    eof := heof, held := hheld, unreported := hunreported }

theorem iovBytes_pos (b : ValidBuffer) : 0 < b.iovBytes := by
  have hiobuf : 0 < IOBUF := by decide
  unfold ValidBuffer.iovBytes Buffer.iovBytes Buffer.iovlen
  by_cases hshort : b.raw.writebytes < IOBUF
  · rw [if_pos hshort, if_pos rfl]
    exact Nat.lt_of_lt_of_le hiobuf (Nat.le_add_left _ _)
  · rw [if_neg hshort, if_neg (by decide)]
    exact Nat.lt_of_lt_of_le hiobuf (Nat.le_of_not_lt hshort)

theorem received_step (writecb : Bool) (hloop : s.loop = LoopThread.reading)
    {b : UInt8} {rest : List UInt8}
    (hle : (b :: rest).length <= s.inbuff.iovBytes)
    (hfront : (b :: rest).isPrefixOf s.socket = true) :
    step writecb s (Action.readiov (ReadResult.received (b :: rest))) =
      some { s with
        bev.inbuff := s.inbuff.receive (b :: rest) hle
        socket := s.socket.drop (b :: rest).length
        loop := LoopThread.testReadcb
        reported := false } := by
  simp only [step, loopStep, hloop, readStep]
  rw [dif_pos hle, if_pos hfront]

theorem Missed.readOne (writecb : Bool) (h : Missed s) {b : UInt8}
    {rest : List UInt8} (hsocket : s.socket = b :: rest) :
    exists t, StepFn.run (step writecb) s
        [Action.readiov (ReadResult.received [b]), Action.testReadcb] =
          some t ∧ Missed t ∧ t.socket = rest := by
  have hle : [b].length <= s.inbuff.iovBytes := iovBytes_pos s.inbuff
  have hfront : [b].isPrefixOf s.socket = true := by
    rw [hsocket]
    simp
  let s' : Accept := { s with
    bev.inbuff := s.inbuff.receive [b] hle
    socket := s.socket.drop [b].length
    loop := LoopThread.testReadcb
    reported := false }
  let t : Accept := { s' with loop := LoopThread.reading }
  have hread : step writecb s (Action.readiov (ReadResult.received [b])) =
      some s' :=
    received_step writecb h.loop hle hfront
  have htest : step writecb s' Action.testReadcb = some t := by
    simp only [step, loopStep, s', t, h.readcb, Bool.false_eq_true, if_false]
  refine ⟨t, ?_, ?_, ?_⟩
  · apply StepFn.run_cons_eq_some.mpr
    refine ⟨s', hread, ?_⟩
    apply StepFn.run_cons_eq_some.mpr
    exact ⟨t, htest, rfl⟩
  · refine { h with loop := rfl, unreported := rfl, held := ?_ }
    show (s.inbuff.receive [b] hle).contents ≠ []
    rw [ValidBuffer.contents_receive]
    exact List.append_ne_nil_of_right_ne_nil _ (List.cons_ne_nil b [])
  · show s.socket.drop [b].length = rest
    rw [hsocket]
    rfl

theorem Missed.drain (writecb : Bool) (h : Missed s) :
    exists acts t, (forall a, a ∈ acts -> a.Local) ∧
      StepFn.run (step writecb) s acts = some t ∧ Missed t ∧
        t.socket = [] := by
  generalize hsocket : s.socket = bytes
  induction bytes generalizing s with
  | nil =>
      exact ⟨[], s, nofun, rfl, h, hsocket⟩
  | cons b rest ih =>
      rcases h.readOne writecb hsocket with
        ⟨s', hrun, hmissed, hrest⟩
      rcases ih hmissed hrest with ⟨acts, t, hlocal, hacts, hend⟩
      refine ⟨_ ++ acts, t, ?_, StepFn.run_append.mpr ⟨s', hrun, hacts⟩, hend⟩
      intro a hmem
      rcases List.mem_append.mp hmem with hnew | hold
      · have heither : a = Action.readiov (ReadResult.received [b]) ∨
            a = Action.testReadcb := by
          simpa using hnew
        rcases heither with ha | ha
        · subst ha
          trivial
        · subst ha
          trivial
      · exact hlocal a hold

theorem readable_eq_false (hsocket : s.socket = []) (heof : s.eof = false) :
    s.readable = false := by
  unfold readable
  rw [hsocket, heof]
  rfl

theorem wouldBlock_step (writecb : Bool)
    (hloop : s.loop = LoopThread.reading)
    (hsocket : s.socket = []) (heof : s.eof = false) :
    step writecb s (Action.readiov (ReadResult.failed Errno.eagain)) =
      some { s with loop := LoopThread.idle } := by
  have hblock : Errno.eagain.wouldBlock = true := rfl
  simp only [step, loopStep, hloop, readStep]
  rw [if_pos hblock, readable_eq_false hsocket heof]
  rfl

theorem notify_eq (hsocket : s.socket = []) (heof : s.eof = false) :
    s.notify = s := by
  unfold notify
  rw [readable_eq_false hsocket heof, Bool.and_false, Bool.or_false]

theorem accept_returns (writecb : Bool) (hloop : s.loop = LoopThread.idle)
    (hpc : s.acceptor = Acceptor.setReadcb) (hopened : s.bev.closed = false)
    (hsocket : s.socket = []) (heof : s.eof = false) :
    exists t, StepFn.run (step writecb) s
        (List.replicate 5 Action.acceptor) = some t ∧
      t.acceptor = Acceptor.returned ∧ t.loop = LoopThread.idle ∧
      t.edge = s.edge ∧ t.socket = [] ∧ t.eof = false ∧
      t.inbuff = s.inbuff ∧ t.reported = s.reported := by
  let t : Accept := { s with
    bev.readcb := true
    bev.writecb := writecb
    bev.eventcb := true
    bev.ev := s.bev.ev.updateEp
    acceptor := Acceptor.returned }
  refine ⟨t, ?_, rfl, hloop, rfl, hsocket, heof, rfl, rfl⟩
  have hnotify : forall bev acceptor,
      { s with bev := bev, acceptor := acceptor : Accept }.notify =
        { s with bev := bev, acceptor := acceptor } :=
    fun bev acceptor => notify_eq hsocket heof
  have hopen : s.loop ≠ LoopThread.closed := by
    rw [hloop]
    nofun
  simp [StepFn.run, List.replicate, step, acceptorStep, hpc, hopen, hopened,
    hnotify, t]

theorem edge_taken (writecb : Bool) (hloop : s.loop = LoopThread.idle)
    (hsocket : s.socket = []) (heof : s.eof = false) :
    exists acts, (forall a, a ∈ acts -> a.Local) ∧
      StepFn.run (step writecb) s acts = some { s with edge := false } := by
  cases hedge : s.edge with
  | false =>
      refine ⟨[], nofun, ?_⟩
      rw [<- hedge]
      rfl
  | true =>
      let s' : Accept := { s with edge := false, loop := LoopThread.reading }
      have hwait : step writecb s Action.wait = some s' := by
        simp only [step, loopStep, hloop]
        rw [if_pos hedge]
      have hblock : step writecb s'
          (Action.readiov (ReadResult.failed Errno.eagain)) =
            some { s with edge := false } := by
        rw [hloop]
        exact wouldBlock_step writecb (s := s') rfl hsocket heof
      refine ⟨[Action.wait,
        Action.readiov (ReadResult.failed Errno.eagain)], ?_, ?_⟩
      · intro a hmem
        rcases List.mem_cons.mp hmem with ha | hrest
        · subst ha
          trivial
        · rw [List.mem_singleton.mp hrest]
          trivial
      · apply StepFn.run_cons_eq_some.mpr
        refine ⟨s', hwait, ?_⟩
        apply StepFn.run_cons_eq_some.mpr
        exact ⟨_, hblock, rfl⟩

theorem Missed.finish (writecb : Bool) (h : Missed s) (hsocket : s.socket = []) :
    exists acts t, (forall a, a ∈ acts -> a.Local) ∧
      StepFn.run (step writecb) s acts = some t ∧ Stranded t := by
  have hblock := wouldBlock_step writecb h.loop hsocket h.eof
  let s' : Accept := { s with loop := LoopThread.idle }
  rcases accept_returns writecb (s := s') rfl h.acceptor
    h.opened hsocket h.eof with
    ⟨t, hrun, hreturned, hidle, _, htsocket, hteof, hinbuff, hreported⟩
  rcases edge_taken writecb hidle htsocket hteof with
    ⟨acts, hlocal, hacts⟩
  refine ⟨Action.readiov (ReadResult.failed Errno.eagain) ::
    (List.replicate 5 Action.acceptor ++ acts), { t with edge := false },
    ?_, ?_, ?_⟩
  · intro a hmem
    rcases List.mem_cons.mp hmem with ha | hrest
    · subst ha
      trivial
    · rcases List.mem_append.mp hrest with haccept | hedge
      · rw [(List.mem_replicate.mp haccept).right]
        trivial
      · exact hlocal a hedge
  · apply StepFn.run_cons_eq_some.mpr
    exact ⟨s', hblock, StepFn.run_append.mpr ⟨t, hrun, hacts⟩⟩
  · exact {
      returned := hreturned, idle := hidle, edge := rfl
      held := by
        show t.inbuff.contents ≠ []
        rw [hinbuff]
        exact h.held
      unreported := hreported.trans h.unreported }

/-!
# Runs
-/

/--
If each test of `readcb_` in a run finds it set, no state of the run has
stranded bytes.  After a run in which a test finds it unset, before the peer
has ended its stream, the program can go on without the peer until some are.
-/
theorem stranded_only_if_readcb_unset (writecb : Bool) (acts : List Action)
    (s : Accept) (hrun : StepFn.run (step writecb) start acts = some s) :
    (StepFn.Meets (step writecb) ReadcbSet start acts -> ¬ Stranded s) ∧
      forall a s', step writecb s a = some s' -> ¬ ReadcbSet s a ->
        s.eof = false ->
          exists rest t, (forall b, b ∈ rest -> b.Local) ∧
            StepFn.run (step writecb) s' rest = some t ∧ Stranded t := by
  constructor
  · intro hmeets
    have htold : Told s :=
      StepFn.run_invariant_of_meets
        (fun _ _ _ h hset hstep => h.step hset hstep) start_told hmeets hrun
    exact htold.not_stranded
  · intro a s' hstep hset heof
    have hinv : Inv s :=
      StepFn.run_invariant (fun _ _ _ h hstep => h.step hstep) start_inv hrun
    have hmissed := missed_of_not_readcbSet hinv hset heof hstep
    rcases hmissed.drain writecb with
      ⟨drained, u, hlocal, hdrained, humissed, hsocket⟩
    rcases humissed.finish writecb hsocket with
      ⟨rest, t, hrestLocal, hrest, hstranded⟩
    refine ⟨drained ++ rest, t, ?_, ?_, hstranded⟩
    · intro b hmem
      rcases List.mem_append.mp hmem with hleft | hright
      · exact hlocal b hleft
      · exact hrestLocal b hright
    · exact StepFn.run_append.mpr ⟨u, hdrained, hrest⟩

def byteRead : Accept where
  bev := { newBfevent with
    ev := { events := EPOLLIN ||| EPOLLET,
            registered := some (EPOLLIN ||| EPOLLET) }
    inbuff := ValidBuffer.fresh.receive [7] (iovBytes_pos _) }
  socket := []
  eof := false
  edge := false
  acceptor := Acceptor.setReadcb
  loop := LoopThread.testReadcb
  reported := false

theorem run_byteRead :
    StepFn.run (step true) start
        [Action.acceptor, Action.peerSends [7], Action.wait,
          Action.readiov (ReadResult.received [7])] = some byteRead := by
  let s : Accept := { byteRead with
    bev.inbuff := ValidBuffer.fresh, socket := [7]
    loop := LoopThread.reading }
  have hbefore : StepFn.run (step true) start
      [Action.acceptor, Action.peerSends [7], Action.wait] = some s := rfl
  have hread : StepFn.run (step true) s
      [Action.readiov (ReadResult.received [7])] = some byteRead := by
    have hle : [(7 : UInt8)].length <= s.inbuff.iovBytes := iovBytes_pos _
    have hfront : [(7 : UInt8)].isPrefixOf s.socket = true := rfl
    apply StepFn.run_cons_eq_some.mpr
    exact ⟨_, received_step true rfl hle hfront, rfl⟩
  have hrun := StepFn.run_append.mpr ⟨s, hbefore, hread⟩
  exact hrun

theorem stranded_only_if_readcb_unset_byteRead :
    (StepFn.Meets (step true) ReadcbSet start
        [Action.acceptor, Action.peerSends [7], Action.wait,
          Action.readiov (ReadResult.received [7])] -> ¬ Stranded byteRead) ∧
      forall a s', step true byteRead a = some s' -> ¬ ReadcbSet byteRead a ->
        byteRead.eof = false ->
          exists rest t, (forall b, b ∈ rest -> b.Local) ∧
            StepFn.run (step true) s' rest = some t ∧ Stranded t :=
  stranded_only_if_readcb_unset true
    [Action.acceptor, Action.peerSends [7], Action.wait,
      Action.readiov (ReadResult.received [7])] byteRead run_byteRead

/--
The peer's only byte is read before `readcb_` is set, and `EPOLL_CTL_MOD` then
finds nothing to read.
-/
theorem first_byte_stranded :
    exists s : Accept,
      StepFn.run (step true) start
          ([Action.acceptor, Action.peerSends [7], Action.wait,
            Action.readiov (ReadResult.received [7])] ++
            ([Action.testReadcb,
              Action.readiov (ReadResult.failed Errno.eagain)] ++
              List.replicate 5 Action.acceptor)) = some s ∧
        Stranded s := by
  refine ⟨_, StepFn.run_append.mpr ⟨byteRead, run_byteRead, rfl⟩, ?_⟩
  refine { returned := rfl, idle := rfl, edge := rfl, held := ?_,
           unreported := rfl }
  show (ValidBuffer.fresh.receive [7] (iovBytes_pos _)).contents ≠ []
  rw [ValidBuffer.contents_receive]
  exact List.append_ne_nil_of_right_ne_nil _ (List.cons_ne_nil 7 [])

end Accept

end MoonNet
