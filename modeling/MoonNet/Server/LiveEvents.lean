import Mathlib.Data.List.Nodup
import MoonNet.Server.Events

/-!
# The list of connections and destroyed events

`acceptcb_` inserts a connection into `events_` after it has registered it with
a loop, so `handle_close` may look for it there too early.  If it never does,
`events_` lists only live events, and `~server` can close and delete each of
them.  If it does once, the two threads can go on such that `events_` lists an
event that is gone.
-/

namespace MoonNet

open Foundation

universe u v

namespace Events

variable {A : Type u} {L : Type v} {s s' t : Events A L}

theorem gone_eq_false {bev : A} {loop : L}
    (h : s.getloop bev = some loop) : s.gone bev = false := by
  unfold gone
  rw [h]
  rfl

/-!
# Deleting a list of events
-/

theorem deleteAll_eq_some [DecidableEq A] {getloop getloop' : A -> Option L}
    {events : List A} (h : deleteAll getloop events = some getloop') :
    getloop' = fun bev => if bev ∈ events then none else getloop bev := by
  induction events generalizing getloop with
  | nil =>
      cases h
      simp
  | cons ev rest ih =>
      rw [deleteAll] at h
      split at h
      · cases h
      · rw [ih h]
        funext bev
        by_cases hbev : bev = ev
        · simp [hbev]
        · simp [hbev]

theorem deleteAll_isSome [DecidableEq A] {getloop : A -> Option L}
    {events : List A} (hnodup : events.Nodup)
    (hlive : forall bev, bev ∈ events -> (getloop bev).isSome = true) :
    (deleteAll getloop events).isSome = true := by
  induction events generalizing getloop with
  | nil =>
      rfl
  | cons ev rest ih =>
      rcases List.nodup_cons.mp hnodup with ⟨hev, hrest⟩
      rcases Option.isSome_iff_exists.mp (hlive ev List.mem_cons_self) with
        ⟨loop, hloop⟩
      rw [deleteAll, hloop]
      apply ih hrest
      intro bev hbev
      have hne : bev ≠ ev := fun heq => hev (heq ▸ hbev)
      rw [Function.update_of_ne hne]
      exact hlive bev (List.mem_cons_of_mem ev hbev)

theorem endBatch_eq_some [DecidableEq A] [DecidableEq L] {loop : L}
    (hstep : s.endBatch loop = some s') :
    s.thread loop = LoopThread.waiting ∧
      exists getloop, deleteAll s.getloop (s.delque loop) = some getloop ∧
        s' = { s with
          getloop := getloop
          delque := Function.update s.delque loop [] } := by
  unfold Events.endBatch at hstep
  cases hthread : s.thread loop with
  | waiting =>
      rw [hthread] at hstep
      rcases Option.map_eq_some_iff.mp hstep with ⟨getloop, hdelete, hs'⟩
      exact ⟨rfl, getloop, hdelete, hs'.symm⟩
  | _ =>
      rw [hthread] at hstep
      cases hstep

/-!
# Invariant

The events that are not gone are in one place each: with the acceptor, in
`events_`, with a loop thread that has removed them, or in the queue of their
loop.
-/

def Closing (getloop : A -> Option L) (delque : L -> List A) (loop : L)
    (th : LoopThread A) : Prop :=
  forall bev, th.closing? = some bev ->
    getloop bev = some loop ∧ bev ∉ delque loop

def Removed (events : List A) (acceptor : Acceptor A) (th : LoopThread A) :
    Prop :=
  forall bev, th.removed? = some bev ->
    bev ∉ events ∧ acceptor.bev? ≠ some bev

def Disabled (eventcb : A -> Bool) (th : LoopThread A) : Prop :=
  forall bev, th = LoopThread.addPendingDel bev -> eventcb bev = false

structure Inv (s : Events A L) : Prop where
  listed : s.ListsLive
  accepting : forall bev, s.acceptor.bev? = some bev ->
    s.gone bev = false ∧ bev ∉ s.events
  closing : forall loop, Closing s.getloop s.delque loop (s.thread loop)
  removed : forall loop, Removed s.events s.acceptor (s.thread loop)
  queued : forall loop bev, bev ∈ s.delque loop ->
    s.getloop bev = some loop ∧ bev ∉ s.events ∧
      s.acceptor.bev? ≠ some bev ∧ s.eventcb bev = false
  queued_once : forall loop, (s.delque loop).Nodup
  disabled : forall loop, Disabled s.eventcb (s.thread loop)

theorem start_inv : Inv (start : Events A L) where
  listed := ⟨List.nodup_nil, nofun⟩
  accepting := nofun
  closing := fun _ => nofun
  removed := fun _ => nofun
  queued := nofun
  queued_once := fun _ => List.nodup_nil
  disabled := fun _ => nofun

namespace Inv

theorem fresh (h : Inv s) {bev : A} (hgone : s.gone bev = true) :
    bev ∉ s.events ∧ (forall loop, bev ∉ s.delque loop) ∧
      forall loop, (s.thread loop).closing? ≠ some bev := by
  have hnone : forall loop, s.getloop bev ≠ some loop := by
    intro loop hloop
    rw [gone_eq_false hloop] at hgone
    cases hgone
  refine ⟨?_, ?_, ?_⟩
  · intro hbev
    rw [h.listed.right bev hbev] at hgone
    cases hgone
  · intro loop hbev
    exact hnone loop (h.queued loop bev hbev).left
  · intro loop hbev
    exact hnone loop (h.closing loop bev hbev).left

end Inv

theorem closing_of_removed {th : LoopThread A} {bev : A}
    (h : th.removed? = some bev) : th.closing? = some bev := by
  cases th with
  | waiting => cases h
  | remove b => cases h
  | disableCb b => exact h
  | addPendingDel b => exact h

namespace Inv

variable [DecidableEq A] [DecidableEq L]

omit [DecidableEq L] in
theorem accept (h : Inv s) {bev : A} {loop : L}
    (hstep : s.accept bev loop = some s') : Inv s' := by
  unfold Events.accept at hstep
  cases hacceptor : s.acceptor with
  | waiting =>
      rw [hacceptor] at hstep
      dsimp only at hstep
      split at hstep
      · rename_i hgone
        cases hstep
        rcases h.fresh hgone with ⟨hevents, hdelque, hthread⟩
        have hkeep : forall b, b ≠ bev ->
            Function.update s.getloop bev (some loop) b = s.getloop b :=
          fun b hb => Function.update_of_ne hb _ _
        constructor
        case listed =>
          refine ⟨h.listed.left, ?_⟩
          intro b hb
          have hne : b ≠ bev := fun heq => hevents (heq ▸ hb)
          show (Function.update s.getloop bev (some loop) b).isNone = false
          rw [hkeep b hne]
          exact h.listed.right b hb
        case accepting =>
          intro b hb
          cases hb
          constructor
          · show (Function.update s.getloop bev (some loop) bev).isNone = false
            rw [Function.update_self]
            rfl
          · exact hevents
        case closing =>
          intro l b hb
          have hne : b ≠ bev := fun heq => hthread l (heq ▸ hb)
          rcases h.closing l b hb with ⟨hloop, hqueue⟩
          exact ⟨(hkeep b hne).trans hloop, hqueue⟩
        case removed =>
          intro l b hb
          have hne : b ≠ bev := by
            intro heq
            exact hthread l (heq ▸ closing_of_removed hb)
          refine ⟨(h.removed l b hb).left, ?_⟩
          intro heq
          exact hne (Option.some.inj heq).symm
        case queued =>
          intro l b hb
          have hne : b ≠ bev := fun heq => hdelque l (heq ▸ hb)
          rcases h.queued l b hb with ⟨hloop, hlisted, _, heventcb⟩
          refine ⟨(hkeep b hne).trans hloop, hlisted, ?_, ?_⟩
          · intro heq
            exact hne (Option.some.inj heq).symm
          · show Function.update s.eventcb bev false b = false
            rw [Function.update_of_ne hne]
            exact heventcb
        case queued_once =>
          exact h.queued_once
        case disabled =>
          intro l b hb
          show Function.update s.eventcb bev false b = false
          by_cases hne : b = bev
          · rw [hne, Function.update_self]
          · rw [Function.update_of_ne hne]
            exact h.disabled l b hb
      · cases hstep
  | _ =>
      rw [hacceptor] at hstep
      cases hstep

omit [DecidableEq A] [DecidableEq L] in
theorem goto (h : Inv s) {bev : A} {acceptor : Acceptor A}
    (hbefore : s.acceptor.bev? = some bev)
    (hafter : acceptor.bev? = some bev) :
    Inv { s with acceptor := acceptor } where
  listed := h.listed
  accepting := by
    intro b hb
    exact h.accepting b (hbefore.trans (hafter.symm.trans hb))
  closing := h.closing
  removed := by
    intro l b hb
    refine ⟨(h.removed l b hb).left, ?_⟩
    intro heq
    exact (h.removed l b hb).right (hbefore.trans (hafter.symm.trans heq))
  queued := by
    intro l b hb
    rcases h.queued l b hb with ⟨hloop, hlisted, hacceptor, heventcb⟩
    refine ⟨hloop, hlisted, ?_, heventcb⟩
    intro heq
    exact hacceptor (hbefore.trans (hafter.symm.trans heq))
  queued_once := h.queued_once
  disabled := h.disabled

omit [DecidableEq L] in
theorem acceptorStep (h : Inv s) (hstep : s.acceptorStep = some s') :
    Inv s' := by
  unfold Events.acceptorStep at hstep
  cases hacceptor : s.acceptor with
  | waiting =>
      rw [hacceptor] at hstep
      cases hstep
  | setEventcb bev =>
      rw [hacceptor] at hstep
      dsimp only at hstep
      split at hstep
      · cases hstep
      · cases hstep
        have hbev : s.acceptor.bev? = some bev := by
          rw [hacceptor]
          rfl
        have hgoto : Inv { s with acceptor := Acceptor.updateEp bev } :=
          h.goto hbev rfl
        have hkeep : forall b, s.acceptor.bev? ≠ some b ->
            Function.update s.eventcb bev true b = s.eventcb b :=
          fun b hne => Function.update_of_ne
            (fun heq : b = bev => hne (heq ▸ hbev)) _ _
        refine { hgoto with queued := ?_, disabled := ?_ }
        · intro l b hb
          rcases h.queued l b hb with ⟨hloop, hlisted, hne, heventcb⟩
          exact ⟨hloop, hlisted, (hgoto.queued l b hb).right.right.left,
            (hkeep b hne).trans heventcb⟩
        · intro l b hb
          have hremoved : (s.thread l).removed? = some b := by
            have hthread : s.thread l = LoopThread.addPendingDel b := hb
            rw [hthread]
            rfl
          exact (hkeep b (h.removed l b hremoved).right).trans
            (h.disabled l b hb)
  | updateEp bev =>
      rw [hacceptor] at hstep
      dsimp only at hstep
      split at hstep
      · cases hstep
      · cases hstep
        have hbefore : s.acceptor.bev? = some bev := by
          rw [hacceptor]
          rfl
        exact h.goto hbefore rfl
  | insert bev =>
      rw [hacceptor] at hstep
      cases hstep
      have hbev : s.acceptor.bev? = some bev := by
        rw [hacceptor]
        rfl
      rcases h.accepting bev hbev with ⟨hlive, hnew⟩
      have hlisted : forall b, s.acceptor.bev? ≠ some b -> b ∉ s.events ->
          b ∉ s.events ++ [bev] := by
        intro b hne hb hmem
        rcases List.mem_append.mp hmem with hold | hlast
        · exact hb hold
        · rw [List.mem_singleton.mp hlast] at hne
          exact hne hbev
      constructor
      case listed =>
        constructor
        · have hconcat := List.Nodup.concat hnew h.listed.left
          rwa [List.concat_eq_append] at hconcat
        · intro b hb
          rcases List.mem_append.mp hb with hold | hlast
          · exact h.listed.right b hold
          · rw [List.mem_singleton.mp hlast]
            exact hlive
      case accepting =>
        nofun
      case closing =>
        exact h.closing
      case removed =>
        intro l b hb
        rcases h.removed l b hb with ⟨hb', hne⟩
        exact ⟨hlisted b hne hb', nofun⟩
      case queued =>
        intro l b hb
        rcases h.queued l b hb with ⟨hloop, hb', hne, heventcb⟩
        exact ⟨hloop, hlisted b hne hb', nofun, heventcb⟩
      case queued_once =>
        exact h.queued_once
      case disabled =>
        exact h.disabled

omit [DecidableEq A] in
theorem forall_thread {P : L -> LoopThread A -> Prop} {loop : L}
    {th : LoopThread A} (hself : P loop th)
    (hother : forall l, P l (s.thread l)) (l : L) :
    P l ((s.setThread loop th).thread l) :=
  (Function.forall_update_iff s.thread P).mpr
    ⟨hself, fun l _ => hother l⟩ l

omit [DecidableEq A] in
theorem handleEvent (h : Inv s) {loop : L} {bev : A}
    (hstep : s.handleEvent loop bev = some s') : Inv s' := by
  unfold Events.handleEvent at hstep
  cases hthread : s.thread loop with
  | waiting =>
      rw [hthread] at hstep
      dsimp only at hstep
      split at hstep
      · rename_i hready
        cases hstep
        have hqueue : bev ∉ s.delque loop := by
          intro hbev
          have heventcb := (h.queued loop bev hbev).right.right.right
          rw [hready.right] at heventcb
          cases heventcb
        refine { h with closing := ?_, removed := ?_, disabled := ?_ }
        · apply forall_thread (P := Closing s.getloop s.delque)
          · intro b hb
            cases hb
            exact ⟨hready.left, hqueue⟩
          · exact h.closing
        · exact forall_thread (P := fun _ => Removed s.events s.acceptor)
            nofun h.removed
        · exact forall_thread (P := fun _ => Disabled s.eventcb) nofun
            h.disabled
      · cases hstep
  | _ =>
      rw [hthread] at hstep
      cases hstep

theorem remove (h : Inv s) {loop : L} {bev : A}
    (hthread : s.thread loop = LoopThread.remove bev) (hbev : bev ∈ s.events) :
    Inv { s.setThread loop (LoopThread.disableCb bev) with
      events := s.events.filter fun e => e != bev } := by
  have hclosing := h.closing loop
  rw [hthread] at hclosing
  have hsub : forall b, b ∈ s.events.filter (fun e => e != bev) ->
      b ∈ s.events := fun b hb => (List.mem_filter.mp hb).left
  constructor
  case listed =>
    refine ⟨h.listed.left.filter _, ?_⟩
    intro b hb
    exact h.listed.right b (hsub b hb)
  case accepting =>
    intro b hb
    rcases h.accepting b hb with ⟨hlive, hnew⟩
    exact ⟨hlive, fun hmem => hnew (hsub b hmem)⟩
  case closing =>
    exact forall_thread (P := Closing s.getloop s.delque) hclosing
      h.closing
  case removed =>
    apply forall_thread (P := fun _ => Removed _ s.acceptor)
    · intro b hb
      cases hb
      constructor
      · intro hmem
        simpa using (List.mem_filter.mp hmem).right
      · intro hacceptor
        exact (h.accepting bev hacceptor).right hbev
    · intro l b hb
      rcases h.removed l b hb with ⟨hnew, hne⟩
      exact ⟨fun hmem => hnew (hsub b hmem), hne⟩
  case queued =>
    intro l b hb
    rcases h.queued l b hb with ⟨hloop, hnew, hne, heventcb⟩
    exact ⟨hloop, fun hmem => hnew (hsub b hmem), hne, heventcb⟩
  case queued_once =>
    exact h.queued_once
  case disabled =>
    exact forall_thread (P := fun _ => Disabled s.eventcb) nofun
      h.disabled

theorem disableCb (h : Inv s) {loop : L} {bev : A}
    (hthread : s.thread loop = LoopThread.disableCb bev) :
    Inv { s.setThread loop (LoopThread.addPendingDel bev) with
      eventcb := Function.update s.eventcb bev false } := by
  have hclosing := h.closing loop
  have hremoved := h.removed loop
  rw [hthread] at hclosing hremoved
  have hkeep : forall b, s.eventcb b = false ->
      Function.update s.eventcb bev false b = false := by
    intro b hb
    by_cases hne : b = bev
    · rw [hne, Function.update_self]
    · rw [Function.update_of_ne hne]
      exact hb
  refine { h with closing := ?_, removed := ?_, queued := ?_,
                  disabled := ?_ }
  · exact forall_thread (P := Closing s.getloop s.delque) hclosing
      h.closing
  · exact forall_thread (P := fun _ => Removed s.events s.acceptor)
      hremoved h.removed
  · intro l b hb
    rcases h.queued l b hb with ⟨hloop, hnew, hne, heventcb⟩
    exact ⟨hloop, hnew, hne, hkeep b heventcb⟩
  · apply forall_thread (P := fun _ => Disabled _)
    · intro b hb
      cases hb
      exact Function.update_self _ _ _
    · intro l b hb
      exact hkeep b (h.disabled l b hb)

omit [DecidableEq A] in
theorem addPendingDel (h : Inv s) {loop : L} {bev : A}
    (hthread : s.thread loop = LoopThread.addPendingDel bev) :
    Inv { s.setThread loop LoopThread.waiting with
      delque :=
        Function.update s.delque loop (s.delque loop ++ [bev]) } := by
  have hclosing := h.closing loop
  have hremoved := h.removed loop
  rw [hthread] at hclosing hremoved
  rcases hclosing bev rfl with ⟨hloop, hnew⟩
  refine { h with closing := ?_, removed := ?_, queued := ?_,
                  queued_once := ?_, disabled := ?_ }
  · intro l b hb
    by_cases hl : l = loop
    · subst hl
      simp only [setThread, Function.update_self] at hb
      cases hb
    · simp only [setThread, Function.update_of_ne hl] at hb
      simp only [Function.update_of_ne hl]
      exact h.closing l b hb
  · exact forall_thread (P := fun _ => Removed s.events s.acceptor)
      nofun h.removed
  · apply (Function.forall_update_iff s.delque fun l queue =>
      forall b, b ∈ queue -> s.getloop b = some l ∧ b ∉ s.events ∧
        s.acceptor.bev? ≠ some b ∧ s.eventcb b = false).mpr
    constructor
    · intro b hb
      rcases List.mem_append.mp hb with hold | hlast
      · exact h.queued loop b hold
      · rw [List.mem_singleton.mp hlast]
        rcases hremoved bev rfl with ⟨hlisted, hne⟩
        exact ⟨hloop, hlisted, hne, h.disabled loop bev hthread⟩
    · exact fun l _ => h.queued l
  · apply (Function.forall_update_iff s.delque fun _ queue =>
      queue.Nodup).mpr
    constructor
    · have hconcat := List.Nodup.concat hnew (h.queued_once loop)
      rwa [List.concat_eq_append] at hconcat
    · exact fun l _ => h.queued_once l
  · exact forall_thread (P := fun _ => Disabled s.eventcb) nofun
      h.disabled

theorem closeStep (h : Inv s) {loop : L}
    (hremoves : RemovesListed s (Action.closeStep loop))
    (hstep : s.closeStep loop = some s') : Inv s' := by
  unfold Events.closeStep at hstep
  cases hthread : s.thread loop with
  | waiting =>
      rw [hthread] at hstep
      cases hstep
  | remove bev =>
      rw [hthread] at hstep
      cases hstep
      have hbev : bev ∈ s.events := by
        simpa only [RemovesListed, hthread] using hremoves
      exact h.remove hthread hbev
  | disableCb bev =>
      rw [hthread] at hstep
      cases hstep
      exact h.disableCb hthread
  | addPendingDel bev =>
      rw [hthread] at hstep
      cases hstep
      exact h.addPendingDel hthread

theorem endBatch (h : Inv s) {loop : L}
    (hstep : s.endBatch loop = some s') : Inv s' := by
  rcases endBatch_eq_some hstep with ⟨hthread, getloop, hdelete, hs'⟩
  cases hs'
  have hkeep : forall b, b ∉ s.delque loop -> getloop b = s.getloop b := by
    intro b hb
    rw [deleteAll_eq_some hdelete]
    exact if_neg hb
  have hlive : forall b, b ∉ s.delque loop -> s.gone b = false ->
      (getloop b).isNone = false := by
    intro b hb hb'
    rw [hkeep b hb]
    exact hb'
  have hother : forall l b, l ≠ loop -> s.getloop b = some l ->
      b ∉ s.delque loop := by
    intro l b hl hloop hmem
    rw [(h.queued loop b hmem).left] at hloop
    exact hl (Option.some.inj hloop).symm
  constructor
  case listed =>
    refine ⟨h.listed.left, ?_⟩
    intro b hb
    exact hlive b (fun hmem => (h.queued loop b hmem).right.left hb)
      (h.listed.right b hb)
  case accepting =>
    intro b hb
    rcases h.accepting b hb with ⟨hb', hnew⟩
    have hnot : b ∉ s.delque loop :=
      fun hmem => (h.queued loop b hmem).right.right.left hb
    exact ⟨hlive b hnot hb', hnew⟩
  case closing =>
    intro l b hb
    have hl : l ≠ loop := by
      intro hl
      rw [hl, hthread] at hb
      cases hb
    rcases h.closing l b hb with ⟨hloop, hqueue⟩
    refine ⟨(hkeep b (hother l b hl hloop)).trans hloop, ?_⟩
    show b ∉ Function.update s.delque loop [] l
    rw [Function.update_of_ne hl]
    exact hqueue
  case removed =>
    exact h.removed
  case queued =>
    apply (Function.forall_update_iff s.delque fun l queue =>
      forall b, b ∈ queue -> getloop b = some l ∧ b ∉ s.events ∧
        s.acceptor.bev? ≠ some b ∧ s.eventcb b = false).mpr
    constructor
    · nofun
    · intro l hl b hb
      rcases h.queued l b hb with ⟨hloop, hrest⟩
      exact ⟨(hkeep b (hother l b hl hloop)).trans hloop, hrest⟩
  case queued_once =>
    apply (Function.forall_update_iff s.delque fun _ queue =>
      queue.Nodup).mpr
    exact ⟨List.nodup_nil, fun l _ => h.queued_once l⟩
  case disabled =>
    exact h.disabled

theorem step (h : Inv s) {a : Action A L} (hremoves : RemovesListed s a)
    (hstep : Events.step s a = some s') : Inv s' := by
  cases a with
  | accept bev loop => exact h.accept hstep
  | acceptor => exact h.acceptorStep hstep
  | handleEvent loop bev => exact h.handleEvent hstep
  | closeStep loop => exact h.closeStep hremoves hstep
  | endBatch loop => exact h.endBatch hstep

end Inv

/-!
# Where the events are
-/

def Located (s : Events A L) : Prop :=
  forall bev, s.gone bev = false ->
    bev ∈ s.events ∨ s.acceptor.bev? = some bev ∨
      (exists loop, (s.thread loop).removed? = some bev) ∨
        exists loop, bev ∈ s.delque loop

theorem start_located : Located (start : Events A L) := nofun

namespace Located

variable [DecidableEq A] [DecidableEq L]

omit [DecidableEq L] in
theorem accept (h : Located s) {bev : A} {loop : L}
    (hstep : s.accept bev loop = some s') : Located s' := by
  unfold Events.accept at hstep
  cases hacceptor : s.acceptor with
  | waiting =>
      rw [hacceptor] at hstep
      dsimp only at hstep
      split at hstep
      · cases hstep
        intro b hb
        by_cases hbev : b = bev
        · rw [hbev]
          exact Or.inr (Or.inl rfl)
        · have hold : s.gone b = false := by
            simp only [gone, Function.update_of_ne hbev] at hb
            exact hb
          rcases h b hold with hlisted | hheld | hrest
          · exact Or.inl hlisted
          · rw [hacceptor] at hheld
            cases hheld
          · exact Or.inr (Or.inr hrest)
      · cases hstep
  | _ =>
      rw [hacceptor] at hstep
      cases hstep

omit [DecidableEq L] in
theorem acceptorStep (h : Located s) (hstep : s.acceptorStep = some s') :
    Located s' := by
  unfold Events.acceptorStep at hstep
  have hheld := h
  unfold Located at hheld
  cases hacceptor : s.acceptor with
  | waiting =>
      rw [hacceptor] at hstep
      cases hstep
  | insert bev =>
      rw [hacceptor] at hstep hheld
      cases hstep
      intro b hb
      rcases hheld b hb with hlisted | hheld | hrest
      · exact Or.inl (List.mem_append_left [bev] hlisted)
      · cases hheld
        exact Or.inl (List.mem_append_right s.events
          (List.mem_singleton_self _))
      · exact Or.inr (Or.inr hrest)
  | _ =>
      rw [hacceptor] at hstep hheld
      dsimp only at hstep
      split at hstep
      · cases hstep
      · cases hstep
        exact hheld

omit [DecidableEq A] in
theorem removed_setThread {loop l : L} {b : A} {t : LoopThread A}
    (hnone : (s.thread loop).removed? = none)
    (hl : (s.thread l).removed? = some b) :
    ((s.setThread loop t).thread l).removed? = some b := by
  have hne : l ≠ loop := by
    intro heq
    rw [heq, hnone] at hl
    cases hl
  simp only [setThread, Function.update_of_ne hne]
  exact hl

omit [DecidableEq A] in
theorem handleEvent (h : Located s) {loop : L} {bev : A}
    (hstep : s.handleEvent loop bev = some s') : Located s' := by
  unfold Events.handleEvent at hstep
  cases hthread : s.thread loop with
  | waiting =>
      rw [hthread] at hstep
      dsimp only at hstep
      split at hstep
      · cases hstep
        intro b hb
        rcases h b hb with hlisted | hheld | ⟨l, hl⟩ | hqueued
        · exact Or.inl hlisted
        · exact Or.inr (Or.inl hheld)
        · have hnone : (s.thread loop).removed? = none := by
            rw [hthread]
            rfl
          exact Or.inr (Or.inr (Or.inl ⟨l, removed_setThread hnone hl⟩))
        · exact Or.inr (Or.inr (Or.inr hqueued))
      · cases hstep
  | _ =>
      rw [hthread] at hstep
      cases hstep

theorem closeStep (h : Located s) {loop : L}
    (hstep : s.closeStep loop = some s') : Located s' := by
  unfold Events.closeStep at hstep
  cases hthread : s.thread loop with
  | waiting =>
      rw [hthread] at hstep
      cases hstep
  | remove bev =>
      rw [hthread] at hstep
      cases hstep
      intro b hb
      rcases h b hb with hlisted | hheld | ⟨l, hl⟩ | hqueued
      · by_cases hbev : b = bev
        · refine Or.inr (Or.inr (Or.inl ⟨loop, ?_⟩))
          simp [setThread, hbev, LoopThread.removed?]
        · exact Or.inl (List.mem_filter.mpr ⟨hlisted, by simpa using hbev⟩)
      · exact Or.inr (Or.inl hheld)
      · have hnone : (s.thread loop).removed? = none := by
          rw [hthread]
          rfl
        exact Or.inr (Or.inr (Or.inl ⟨l, removed_setThread hnone hl⟩))
      · exact Or.inr (Or.inr (Or.inr hqueued))
  | disableCb bev =>
      rw [hthread] at hstep
      cases hstep
      intro b hb
      rcases h b hb with hlisted | hheld | ⟨l, hl⟩ | hqueued
      · exact Or.inl hlisted
      · exact Or.inr (Or.inl hheld)
      · refine Or.inr (Or.inr (Or.inl ⟨l, ?_⟩))
        by_cases hne : l = loop
        · rw [hne, hthread] at hl
          cases hl
          simp [setThread, hne, LoopThread.removed?]
        · simp only [setThread, Function.update_of_ne hne]
          exact hl
      · exact Or.inr (Or.inr (Or.inr hqueued))
  | addPendingDel bev =>
      rw [hthread] at hstep
      cases hstep
      have hqueue : forall l, s.delque l ⊆
          Function.update s.delque loop (s.delque loop ++ [bev]) l := by
        intro l b hb
        by_cases hne : l = loop
        · subst hne
          rw [Function.update_self]
          exact List.mem_append_left [bev] hb
        · rw [Function.update_of_ne hne]
          exact hb
      intro b hb
      rcases h b hb with hlisted | hheld | ⟨l, hl⟩ | ⟨l, hl⟩
      · exact Or.inl hlisted
      · exact Or.inr (Or.inl hheld)
      · by_cases hne : l = loop
        · rw [hne, hthread] at hl
          cases hl
          refine Or.inr (Or.inr (Or.inr ⟨loop, ?_⟩))
          simp
        · refine Or.inr (Or.inr (Or.inl ⟨l, ?_⟩))
          simp only [setThread, Function.update_of_ne hne]
          exact hl
      · exact Or.inr (Or.inr (Or.inr ⟨l, hqueue l hl⟩))

theorem endBatch (h : Located s) {loop : L}
    (hstep : s.endBatch loop = some s') : Located s' := by
  rcases endBatch_eq_some hstep with ⟨_, getloop, hdelete, hs'⟩
  cases hs'
  intro b hb
  have hlive : (getloop b).isNone = false := hb
  rw [deleteAll_eq_some hdelete] at hlive
  by_cases hmem : b ∈ s.delque loop
  · simp [hmem] at hlive
  · simp only [if_neg hmem] at hlive
    rcases h b hlive with hlisted | hheld | hremoved | ⟨l, hl⟩
    · exact Or.inl hlisted
    · exact Or.inr (Or.inl hheld)
    · exact Or.inr (Or.inr (Or.inl hremoved))
    · have hne : l ≠ loop := fun heq => hmem (heq ▸ hl)
      refine Or.inr (Or.inr (Or.inr ⟨l, ?_⟩))
      simp only [Function.update_of_ne hne]
      exact hl

theorem step (h : Located s) {a : Action A L}
    (hstep : Events.step s a = some s') : Located s' := by
  cases a with
  | accept bev loop => exact h.accept hstep
  | acceptor => exact h.acceptorStep hstep
  | handleEvent loop bev => exact h.handleEvent hstep
  | closeStep loop => exact h.closeStep hstep
  | endBatch loop => exact h.endBatch hstep

end Located

/-!
# Removing an event that is not listed yet
-/

section Early

variable [DecidableEq A] [DecidableEq L] {bev : A} {loop : L}

omit [DecidableEq A] [DecidableEq L] in
theorem accepting_of_not_listed (hinv : Inv s) (hlocated : Located s)
    (hthread : s.thread loop = LoopThread.remove bev)
    (hbev : bev ∉ s.events) : s.acceptor.bev? = some bev := by
  have hclosing := hinv.closing loop
  rw [hthread] at hclosing
  rcases hclosing bev rfl with ⟨hloop, hqueue⟩
  rcases hlocated bev (gone_eq_false hloop) with
    hlisted | hheld | ⟨l, hl⟩ | ⟨l, hl⟩
  · exact absurd hlisted hbev
  · exact hheld
  · have hl' := (hinv.closing l bev (closing_of_removed hl)).left
    rw [hloop] at hl'
    cases hl'
    rw [hthread] at hl
    cases hl
  · have hl' := (hinv.queued l bev hl).left
    rw [hloop] at hl'
    cases hl'
    exact absurd hl hqueue

theorem insert_run (hheld : s.acceptor.bev? = some bev)
    (hlive : s.gone bev = false) :
    exists acts t, StepFn.run step s acts = some t ∧ bev ∈ t.events ∧
      t.getloop = s.getloop ∧ t.delque = s.delque ∧ t.thread = s.thread := by
  have hgone : (s.getloop bev).isNone = false := hlive
  have hlast : bev ∈ s.events ++ [bev] :=
    List.mem_append_right s.events (List.mem_singleton_self bev)
  cases hacceptor : s.acceptor with
  | waiting =>
      rw [hacceptor] at hheld
      cases hheld
  | setEventcb b =>
      rw [hacceptor] at hheld
      cases hheld
      refine ⟨List.replicate 3 Action.acceptor,
        { s with
          eventcb := Function.update s.eventcb bev true
          events := s.events ++ [bev]
          acceptor := Acceptor.waiting }, ?_, hlast, rfl, rfl, rfl⟩
      simp [List.replicate, StepFn.run, step, acceptorStep, gone, hacceptor,
        hgone]
  | updateEp b =>
      rw [hacceptor] at hheld
      cases hheld
      refine ⟨List.replicate 2 Action.acceptor,
        { s with
          events := s.events ++ [bev]
          acceptor := Acceptor.waiting }, ?_, hlast, rfl, rfl, rfl⟩
      simp [List.replicate, StepFn.run, step, acceptorStep, gone, hacceptor,
        hgone]
  | insert b =>
      rw [hacceptor] at hheld
      cases hheld
      refine ⟨[Action.acceptor],
        { s with
          events := s.events ++ [bev]
          acceptor := Acceptor.waiting }, ?_, hlast, rfl, rfl, rfl⟩
      simp [StepFn.run, step, acceptorStep, hacceptor]

theorem close_run (hthread : s.thread loop = LoopThread.disableCb bev) :
    exists acts t, StepFn.run step s acts = some t ∧
      t.getloop = s.getloop ∧ t.acceptor = s.acceptor ∧
      t.thread loop = LoopThread.waiting ∧
      t.delque loop = s.delque loop ++ [bev] := by
  let disabled : Events A L :=
    { s.setThread loop (LoopThread.addPendingDel bev) with
      eventcb := Function.update s.eventcb bev false }
  have hdisabled : step s (Action.closeStep loop) = some disabled := by
    simp only [step, closeStep, hthread]
    rfl
  have hnext : disabled.thread loop = LoopThread.addPendingDel bev :=
    Function.update_self _ _ _
  let queued : Events A L :=
    { disabled.setThread loop LoopThread.waiting with
      delque := Function.update s.delque loop (s.delque loop ++ [bev]) }
  have hqueued : step disabled (Action.closeStep loop) = some queued := by
    simp only [step, closeStep, hnext]
    rfl
  refine ⟨[Action.closeStep loop, Action.closeStep loop], queued, ?_, rfl, rfl,
    Function.update_self _ _ _, Function.update_self _ _ _⟩
  exact StepFn.run_cons_eq_some.mpr ⟨disabled, hdisabled,
    StepFn.run_cons_eq_some.mpr ⟨queued, hqueued, rfl⟩⟩

omit [DecidableEq A] [DecidableEq L] in
theorem exists_of_not_removesListed {a : Action A L}
    (h : ¬ RemovesListed s a) :
    exists loop bev, a = Action.closeStep loop ∧
      s.thread loop = LoopThread.remove bev ∧ bev ∉ s.events := by
  cases a with
  | closeStep loop =>
      cases hthread : s.thread loop with
      | remove bev =>
          refine ⟨loop, bev, rfl, hthread, ?_⟩
          simpa only [RemovesListed, hthread] using h
      | _ =>
          simp [RemovesListed, hthread] at h
  | _ =>
      exact absurd trivial h

/-- What is removed before it is inserted can be destroyed while listed. -/
theorem early_removal_lists_gone (hinv : Inv s) (hlocated : Located s)
    {a : Action A L} (hearly : ¬ RemovesListed s a)
    (hstep : step s a = some s') :
    exists acts t, StepFn.run step s' acts = some t ∧ ¬ ListsLive t := by
  rcases exists_of_not_removesListed hearly with
    ⟨loop, bev, ha, hthread, hbev⟩
  subst ha
  have hheld := accepting_of_not_listed hinv hlocated hthread hbev
  have hclosing := hinv.closing loop
  rw [hthread] at hclosing
  rcases hclosing bev rfl with ⟨hloop, hqueue⟩
  simp only [step, closeStep, hthread, Option.some.injEq] at hstep
  subst hstep
  have hdisable :
      Function.update s.thread loop (LoopThread.disableCb bev) loop =
        LoopThread.disableCb bev := Function.update_self _ _ _
  rcases close_run (s := { s.setThread loop (LoopThread.disableCb bev) with
      events := s.events.filter fun e => e != bev }) hdisable with
    ⟨acts, m, hclose, hgetloop, hacceptor, hwaiting, hdelque⟩
  have hlive : m.gone bev = false := by
    have hmloop : m.getloop bev = some loop := by
      rw [hgetloop]
      exact hloop
    exact gone_eq_false hmloop
  rcases insert_run (hacceptor ▸ hheld) hlive with
    ⟨acts', n, hinsert, hlisted, hgetloop', hdelque', hthread'⟩
  have hqueued : n.delque loop = s.delque loop ++ [bev] := by
    rw [hdelque']
    exact hdelque
  have hsame : n.getloop = s.getloop := hgetloop'.trans hgetloop
  have hdelete : (deleteAll n.getloop (n.delque loop)).isSome = true := by
    rw [hqueued, hsame]
    apply deleteAll_isSome
    · have hconcat := List.Nodup.concat hqueue (hinv.queued_once loop)
      rwa [List.concat_eq_append] at hconcat
    · intro b hb
      rcases List.mem_append.mp hb with hold | hlast
      · rw [(hinv.queued loop b hold).left]
        rfl
      · rw [List.mem_singleton.mp hlast, hloop]
        rfl
  rcases Option.isSome_iff_exists.mp hdelete with ⟨getloop, hgetloop''⟩
  have hwaiting' : n.thread loop = LoopThread.waiting := by
    rw [hthread']
    exact hwaiting
  let destroyed : Events A L :=
    { n with
      getloop := getloop
      delque := Function.update n.delque loop [] }
  have hend : step n (Action.endBatch loop) = some destroyed := by
    simp only [step, endBatch, hwaiting', hgetloop'', Option.map_some]
    rfl
  refine ⟨acts ++ (acts' ++ [Action.endBatch loop]), destroyed, ?_, ?_⟩
  · exact StepFn.run_append.mpr ⟨m, hclose, StepFn.run_append.mpr
      ⟨n, hinsert, StepFn.run_cons_eq_some.mpr ⟨destroyed, hend, rfl⟩⟩⟩
  · intro hlists
    have hgone : (getloop bev).isNone = false := hlists.right bev hlisted
    simp [deleteAll_eq_some hgetloop'', hqueued] at hgone

end Early

/-!
# Runs
-/

section Runs

variable [DecidableEq A] [DecidableEq L]

/--
If `handle_close` removes events only after `acceptcb_` has inserted them, every
reached state lists live events, once each, and `~server` deletes exactly these.
After any other removal some continuation lists an event that is gone.
-/
theorem listsLive_of_removesListed (acts : List (Action A L))
    (hmeets : StepFn.Meets step RemovesListed start acts)
    (hrun : StepFn.run step start acts = some s) :
    s.ListsLive ∧
      (exists getloop, s.closeEvents = some getloop ∧
        forall bev, getloop bev =
          if bev ∈ s.events then none else s.getloop bev) ∧
      forall a s', step s a = some s' -> ¬ RemovesListed s a ->
        exists acts t, StepFn.run step s' acts = some t ∧ ¬ ListsLive t := by
  have hpres : forall (s : Events A L) a s', Inv s -> RemovesListed s a ->
      step s a = some s' -> Inv s' :=
    fun s a s' h hremoves hstep => h.step hremoves hstep
  have hinv : Inv s :=
    StepFn.run_invariant_of_meets hpres start_inv hmeets hrun
  have hlocated : Located s := by
    have hkeep : forall (s : Events A L) a s', Located s ->
        step s a = some s' -> Located s' :=
      fun s a s' h hstep => h.step hstep
    exact StepFn.run_invariant hkeep start_located hrun
  refine ⟨hinv.listed, ?_, ?_⟩
  · have hdelete : (deleteAll s.getloop s.events).isSome = true := by
      apply deleteAll_isSome hinv.listed.left
      intro bev hbev
      exact Option.isNone_eq_false_iff.mp (hinv.listed.right bev hbev)
    rcases Option.isSome_iff_exists.mp hdelete with ⟨getloop, hgetloop⟩
    refine ⟨getloop, hgetloop, ?_⟩
    intro bev
    rw [deleteAll_eq_some hgetloop]
  · intro a s' hstep hearly
    exact early_removal_lists_gone hinv hlocated hearly hstep

end Runs

/-- The memory of a closed connection is used again for the next one. -/
theorem listsLive_of_removesListed_reusedMemory :
    exists s : Events Nat Nat,
      s.events = [7] ∧ s.ListsLive ∧
        exists getloop, s.closeEvents = some getloop ∧ getloop 7 = none := by
  let acts : List (Action Nat Nat) :=
    Action.accept 7 0 :: List.replicate 3 Action.acceptor ++
      Action.handleEvent 0 7 :: List.replicate 3 (Action.closeStep 0) ++
      Action.endBatch 0 :: Action.accept 7 1 ::
        List.replicate 3 Action.acceptor
  have hmeets : StepFn.Meets step RemovesListed start acts := by
    simp [acts, List.replicate, StepFn.Meets, step, start, accept,
      acceptorStep, handleEvent, closeStep, endBatch, deleteAll, gone,
      setThread, RemovesListed]
  have hreached : exists s, StepFn.run step start acts = some s ∧
      s.events = [7] := by
    refine ⟨_, rfl, rfl⟩
  rcases hreached with ⟨s, hrun, hevents⟩
  rcases listsLive_of_removesListed acts hmeets hrun with
    ⟨hlists, ⟨getloop, hclose, hgone⟩, _⟩
  refine ⟨s, hevents, hlists, getloop, hclose, ?_⟩
  rw [hgone 7, hevents]
  rfl

/-- The whole life of a connection before `acceptcb_` inserts it. -/
theorem gone_before_insert_listed :
    exists s : Events Nat Nat,
      StepFn.run step start
          (Action.accept 7 0 :: List.replicate 2 Action.acceptor ++
            Action.handleEvent 0 7 :: List.replicate 3 (Action.closeStep 0) ++
            [Action.endBatch 0, Action.acceptor]) = some s ∧
        7 ∈ s.events ∧ s.gone 7 = true ∧ ¬ s.ListsLive := by
  refine ⟨_, rfl, List.mem_singleton_self 7, rfl, ?_⟩
  intro hlists
  have hlive := hlists.right 7 (List.mem_singleton_self 7)
  cases hlive

end Events

end MoonNet
