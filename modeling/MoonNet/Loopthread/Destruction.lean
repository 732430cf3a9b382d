import MoonNet.Loopthread.Publication

/-!
# Destroying a loop thread

The destructor deletes the loop only after its thread has ended.  It does not
find the loop if it comes before the publication: then it asks nobody to stop,
and it deletes nothing.
-/

namespace MoonNet

open Foundation
open Kernel

universe u

namespace Loopthread

variable {ι : Type u}

def Owner.Breaking : Owner -> Prop
  | Owner.loopbreak | Owner.deleting => True
  | _ => False

def Owner.Past : Owner -> Prop
  | Owner.deleteLoop | Owner.deleting | Owner.destroyed => True
  | _ => False

def Thread.Outside (t : Thread) : Prop :=
  t ≠ Thread.inLoop

structure Sound (s : Loopthread ι) : Prop where
  stop : Stop.Inv s.stop
  placed : Stop.Placed s.stop
  published : Published s
  outside : s.thread.Outside -> s.stop.Left
  joined : s.joined = true -> s.thread = Thread.ended
  past : s.owner.Past -> s.thread = Thread.ended
  breaking : s.owner.Breaking <->
    s.stop.breaker none ≠ Stop.Breaker.outside

theorem start_sound (garbage timeout : Int) :
    Sound (start garbage timeout : Loopthread ι) where
  stop := Stop.start_inv
  placed := Stop.start_placed
  published := start_published garbage timeout
  outside := fun _ => rfl
  joined := nofun
  past := fun hno => hno.elim
  breaking := iff_of_false id fun h => h rfl

variable {s t : Loopthread ι}

theorem breakStep_frame [DecidableEq ι] {i : Option ι} {failure : Option Errno}
    {q : Stop (Option ι)} (hstep : s.breakStep i failure = some q) :
    exists a, a.byLoop = false ∧ s.stop.step a = some q ∧
      forall j, j ≠ i -> q.breaker j = s.stop.breaker j := by
  unfold breakStep at hstep
  split at hstep
  · refine ⟨Stop.Action.loopbreak i, rfl, hstep, ?_⟩
    intro j hj
    unfold Stop.loopbreak at hstep
    split at hstep
    · cases hstep
      exact Function.update_of_ne hj _ _
    · cases hstep
  · refine ⟨Stop.Action.breakTest i, rfl, hstep, ?_⟩
    intro j hj
    unfold Stop.breakTest at hstep
    split at hstep
    · cases hstep
      exact Function.update_of_ne hj _ _
    · cases hstep
  · refine ⟨Stop.Action.breakWrite i failure, rfl, hstep, ?_⟩
    intro j hj
    unfold Stop.writeEventfd at hstep
    split at hstep
    · split at hstep
      · cases hstep
        exact Function.update_of_ne hj _ _
      · cases hstep
    · cases hstep
      exact Function.update_of_ne hj _ _
    · cases hstep

theorem Sound.stopped [DecidableEq ι] (h : Sound s) {a : Stop.Action (Option ι)}
    {q : Stop (Option ι)} (ha : a.byLoop = false)
    (hstep : s.stop.step a = some q) :
    Stop.Inv q ∧ Stop.Placed q ∧ (s.thread.Outside -> q.Left) := by
  have hsteps := Stop.step_steps hstep
  refine ⟨h.stop.step_inv hstep, hsteps.placed h.placed, ?_⟩
  intro hthread
  unfold Stop.Left
  rw [(hsteps.other_frame ha).left]
  exact h.outside hthread

theorem Sound.frame (h : Sound s) (hpublished : Published t)
    (hstop : t.stop = s.stop) (hthread : t.thread = s.thread)
    (howner : t.owner = s.owner) (hjoined : t.joined = s.joined) :
    Sound t where
  stop := hstop ▸ h.stop
  placed := hstop ▸ h.placed
  published := hpublished
  outside := by rw [hthread, hstop]; exact h.outside
  joined := by rw [hjoined, hthread]; exact h.joined
  past := by rw [howner, hthread]; exact h.past
  breaking := by rw [howner, hstop]; exact h.breaking

theorem Sound.goto (h : Sound s) (hpublished : Published t)
    (hstop : t.stop = s.stop) (hthread : t.thread = s.thread)
    (hjoined : t.joined = true -> s.thread = Thread.ended)
    (hs : ¬ s.owner.Breaking) (ht : ¬ t.owner.Breaking)
    (hpast : t.owner.Past -> s.thread = Thread.ended) : Sound t where
  stop := hstop ▸ h.stop
  placed := hstop ▸ h.placed
  published := hpublished
  outside := by rw [hthread, hstop]; exact h.outside
  joined := by rw [hthread]; exact hjoined
  past := by rw [hthread]; exact hpast
  breaking := by
    rw [hstop]
    refine iff_of_false ht fun hno => hs ?_
    exact h.breaking.mpr hno

theorem Sound.run (h : Sound s) (hthread : s.thread ≠ Thread.ended)
    (hpublished : Published t) (hstop : Stop.Inv t.stop)
    (hplaced : Stop.Placed t.stop)
    (houtside : t.thread.Outside -> t.stop.Left)
    (hbreaker : t.stop.breaker = s.stop.breaker)
    (howner : t.owner = s.owner) (hjoined : t.joined = s.joined) : Sound t where
  stop := hstop
  placed := hplaced
  published := hpublished
  outside := houtside
  joined := by
    rw [hjoined]
    exact fun hno => absurd (h.joined hno) hthread
  past := by
    rw [howner]
    exact fun hno => absurd (h.past hno) hthread
  breaking := by rw [howner, hbreaker]; exact h.breaking

theorem Sound.breaking_step [DecidableEq ι] (h : Sound s) {q : Stop (Option ι)}
    (hstep : s.stop.loopbreak none = some q)
    (hpublished : Published t) (hstop : t.stop = q)
    (hthread : t.thread = s.thread) (hjoined : t.joined = s.joined)
    (ht : t.owner.Breaking)
    (hpast : t.owner.Past -> s.thread = Thread.ended) : Sound t := by
  have hone : s.stop.step (Stop.Action.loopbreak none) = some q := hstep
  rcases h.stopped rfl hone with ⟨hinv, hplaced, houtside⟩
  have hbreaker : q.breaker none = Stop.Breaker.test := by
    unfold Stop.loopbreak at hstep
    split at hstep
    · cases hstep
      exact Function.update_self none Stop.Breaker.test s.stop.breaker
    · cases hstep
  exact {
    stop := hstop ▸ hinv
    placed := hstop ▸ hplaced
    published := hpublished
    outside := by rw [hthread, hstop]; exact houtside
    joined := by rw [hjoined, hthread]; exact h.joined
    past := by rw [hthread]; exact hpast
    breaking := by
      rw [hstop, hbreaker]
      exact iff_of_true ht nofun }

theorem Sound.break [DecidableEq ι] (h : Sound s) {q : Stop (Option ι)}
    {failure : Option Errno} (hstep : s.breakStep none failure = some q)
    {next : Loopthread ι -> Loopthread ι} (hs : s.owner.Breaking)
    (hpublished : Published (onReturn next { s with stop := q }))
    (hstop : (next { s with stop := q }).stop = q)
    (hthread : (next { s with stop := q }).thread = s.thread)
    (hjoined : (next { s with stop := q }).joined = s.joined)
    (ht : ¬ (next { s with stop := q }).owner.Breaking)
    (hpast : (next { s with stop := q }).owner.Past ->
      s.thread = Thread.ended) :
    Sound (onReturn next { s with stop := q }) := by
  rcases breakStep_frame hstep with ⟨a, ha, hone, _⟩
  rcases h.stopped ha hone with ⟨hinv, hplaced, houtside⟩
  unfold onReturn at hpublished ⊢
  split
  · rename_i hbreaker
    rw [if_pos hbreaker] at hpublished
    exact {
      stop := by rw [hstop]; exact hinv
      placed := by rw [hstop]; exact hplaced
      published := hpublished
      outside := by rw [hthread, hstop]; exact houtside
      joined := by rw [hjoined, hthread]; exact h.joined
      past := by rw [hthread]; exact hpast
      breaking := by
        rw [hstop]
        exact iff_of_false ht fun hno => hno hbreaker }
  · rename_i hbreaker
    rw [if_neg hbreaker] at hpublished
    exact {
      stop := hinv
      placed := hplaced
      published := hpublished
      outside := houtside
      joined := h.joined
      past := h.past
      breaking := iff_of_true hs hbreaker }

theorem Owner.afterJoin_frame {o next : Owner} (h : o.afterJoin = some next) :
    ¬ o.Breaking ∧ ¬ next.Breaking := by
  unfold Owner.afterJoin at h
  split at h
  · cases h
    exact ⟨id, id⟩
  · cases h
    exact ⟨id, id⟩
  · cases h
    exact ⟨id, id⟩
  · cases h

theorem Sound.next [DecidableEq ι] (h : Sound s) {a : Action ι}
    (hsteps : Steps s a t) : Sound t := by
  have hpublished := h.published.next hsteps
  cases hsteps with
  | creates ht =>
      exact h.run (by rw [ht]; nofun) hpublished h.stop h.placed
        (fun _ => h.outside (by rw [ht]; nofun)) rfl rfl rfl
  | publishes ht =>
      exact h.run (by rw [ht]; nofun) hpublished h.stop h.placed
        (fun _ => h.outside (by rw [ht]; nofun)) rfl rfl rfl
  | enters ht hstep =>
      have hframe := (Stop.step_steps hstep).byLoop_frame rfl
      exact h.run (by rw [ht]; nofun) hpublished (h.stop.step_inv hstep)
        ((Stop.step_steps hstep).placed h.placed)
        (fun hno => absurd rfl hno) hframe.right.left rfl rfl
  | returns ht hl =>
      exact h.run (by rw [ht]; nofun) hpublished h.stop h.placed
        (fun _ => hl) rfl rfl rfl
  | loops ht hl ha hstep =>
      have hframe := (Stop.step_steps hstep).byLoop_frame ha
      exact h.run (by rw [ht]; nofun) hpublished (h.stop.step_inv hstep)
        ((Stop.step_steps hstep).placed h.placed)
        (fun hno => absurd ht hno) hframe.right.left rfl rfl
  | stores failure ho =>
      exact h.goto hpublished rfl rfl h.joined
        (ho ▸ id) id
        fun hno => hno.elim
  | tests failure ho =>
      refine h.goto hpublished rfl rfl h.joined
        (ho ▸ id) ?_ ?_
      · show ¬ (if _ then Owner.clampTimeout else Owner.idle).Breaking
        split
        · exact id
        · exact id
      · show (if _ then Owner.clampTimeout else Owner.idle).Past -> _
        split
        · exact fun hno => hno.elim
        · exact fun hno => hno.elim
  | clamps failure ho =>
      exact h.goto hpublished rfl rfl h.joined
        (ho ▸ id) id
        fun hno => hno.elim
  | joins failure ho hdone =>
      have hended : s.thread = Thread.ended := hdone.elim h.joined id
      have hframe := Owner.afterJoin_frame ho
      exact h.goto hpublished rfl rfl (fun _ => hended) hframe.left
        hframe.right fun _ => hended
  | findsNull failure ho hloop =>
      exact h.goto hpublished rfl rfl h.joined
        (ho ▸ id) id
        fun hno => hno.elim
  | findsLoop failure ho hloop hstep =>
      exact h.breaking_step hstep hpublished rfl rfl rfl trivial
        fun hno => hno.elim
  | breaks ho hstep =>
      exact h.break hstep (ho ▸ trivial) hpublished rfl rfl rfl
        id fun hno => hno.elim
  | deletes failure ho hstep =>
      exact h.breaking_step hstep hpublished rfl rfl rfl trivial
        fun _ => h.past (ho ▸ trivial)
  | deleted ho hstep =>
      exact h.break hstep (ho ▸ trivial) hpublished rfl rfl rfl
        id fun _ => h.past (ho ▸ trivial)
  | joinCalled ho =>
      exact h.goto hpublished rfl rfl h.joined
        (ho ▸ id) id
        fun hno => hno.elim
  | destroyCalled ho =>
      exact h.goto hpublished rfl rfl h.joined
        (ho ▸ id) id
        fun hno => hno.elim
  | calls ha hnext => exact h.frame hpublished rfl rfl rfl rfl
  | breaksOther hstep =>
      rcases breakStep_frame hstep with ⟨b, hb, hone, hothers⟩
      rcases h.stopped hb hone with ⟨hinv, hplaced, houtside⟩
      exact {
        stop := hinv
        placed := hplaced
        published := hpublished
        outside := houtside
        joined := h.joined
        past := h.past
        breaking := by
          show _ <-> _
          rw [hothers none nofun]
          exact h.breaking }

/-!
## Whether the loop is deleted
-/

def Owner.Joined : Owner -> Prop
  | Owner.joinNull | Owner.destroyed => True
  | _ => False

def Leaking (s : Loopthread ι) : Prop :=
  s.owner.Joined ∧ s.deleted = false

def Keeping (s : Loopthread ι) : Prop :=
  s.owner.Joined <-> s.deleted = true

/-- The destructor finds the loop when it looks for it. -/
def FindsLoop (s : Loopthread ι) (a : Action ι) : Prop :=
  match a, s.owner with
  | Action.owner _, Owner.testLoop => s.loop ≠ none
  | _, _ => True

theorem Owner.afterJoin_joined {o next : Owner} (h : o.afterJoin = some next) :
    next.Joined <-> o.Joined := by
  unfold Owner.afterJoin at h
  split at h
  · cases h
    exact Iff.rfl
  · cases h
    exact Iff.rfl
  · cases h
    exact Iff.rfl
  · cases h

theorem Leaking.next [DecidableEq ι] (h : Leaking s) {a : Action ι}
    (hsteps : Steps s a t) : Leaking t := by
  cases hsteps with
  | stores failure ho => exact absurd h.left (ho ▸ id)
  | tests failure ho => exact absurd h.left (ho ▸ id)
  | clamps failure ho => exact absurd h.left (ho ▸ id)
  | joins failure ho hdone =>
      exact ⟨(Owner.afterJoin_joined ho).mpr h.left, h.right⟩
  | findsNull failure ho hloop => exact absurd h.left (ho ▸ id)
  | findsLoop failure ho hloop hstep => exact absurd h.left (ho ▸ id)
  | breaks ho hstep => exact absurd h.left (ho ▸ id)
  | deletes failure ho hstep => exact absurd h.left (ho ▸ id)
  | deleted ho hstep => exact absurd h.left (ho ▸ id)
  | joinCalled ho => exact absurd h.left (ho ▸ id)
  | destroyCalled ho => exact absurd h.left (ho ▸ id)
  | _ => exact h

theorem Keeping.goto (h : Keeping s) {next : Owner}
    (hs : ¬ s.owner.Joined) (ht : ¬ next.Joined) :
    Keeping { s with owner := next } := by
  refine iff_of_false ht fun hdeleted => hs ?_
  exact h.mpr hdeleted

theorem FindsLoop.other {a : Action ι} (ho : s.owner ≠ Owner.testLoop) :
    FindsLoop s a := by
  unfold FindsLoop
  split
  · rename_i howner
    exact absurd howner ho
  · trivial

theorem Keeping.next [DecidableEq ι] (h : Keeping s) {a : Action ι}
    (hsteps : Steps s a t) :
    FindsLoop s a ∧ Keeping t ∨ ¬ FindsLoop s a ∧ Leaking t := by
  cases hsteps with
  | stores failure ho =>
      exact Or.inl ⟨FindsLoop.other (by rw [ho]; nofun),
        h.goto (ho ▸ id) id⟩
  | tests failure ho =>
      refine Or.inl ⟨FindsLoop.other (by rw [ho]; nofun),
        h.goto (ho ▸ id) ?_⟩
      split
      · exact id
      · exact id
  | clamps failure ho =>
      exact Or.inl ⟨FindsLoop.other (by rw [ho]; nofun),
        h.goto (ho ▸ id) id⟩
  | joins failure ho hdone =>
      refine Or.inl ⟨FindsLoop.other ?_, (Owner.afterJoin_joined ho).trans h⟩
      intro howner
      rw [howner] at ho
      cases ho
  | findsNull failure ho hloop =>
      refine Or.inr ⟨?_, trivial, ?_⟩
      · unfold FindsLoop
        rw [ho]
        exact fun hfinds => hfinds hloop
      · cases hdeleted : s.deleted with
        | false => rfl
        | true => exact absurd (h.mpr hdeleted) (ho ▸ id)
  | findsLoop failure ho hloop hstep =>
      refine Or.inl ⟨?_, h.goto (ho ▸ id) id⟩
      unfold FindsLoop
      rw [ho]
      exact hloop
  | breaks ho hstep =>
      refine Or.inl ⟨FindsLoop.other (by rw [ho]; nofun), ?_⟩
      exact onReturn_keeps h fun _ => h.goto (ho ▸ id) id
  | deletes failure ho hstep =>
      exact Or.inl ⟨FindsLoop.other (by rw [ho]; nofun),
        h.goto (ho ▸ id) id⟩
  | deleted ho hstep =>
      refine Or.inl ⟨FindsLoop.other (by rw [ho]; nofun), ?_⟩
      exact onReturn_keeps h fun _ => iff_of_true trivial rfl
  | joinCalled ho =>
      exact Or.inl ⟨FindsLoop.other (by rw [ho]; nofun),
        h.goto (ho ▸ id) id⟩
  | destroyCalled ho =>
      exact Or.inl ⟨FindsLoop.other (by rw [ho]; nofun),
        h.goto (ho ▸ id) id⟩
  | calls ha hnext =>
      rcases ha with rfl | rfl | rfl
      · exact Or.inl ⟨trivial, h⟩
      · exact Or.inl ⟨trivial, h⟩
      · exact Or.inl ⟨trivial, h⟩
  | _ => exact Or.inl ⟨trivial, h⟩

theorem deleted_iff [DecidableEq ι] {garbage timeout : Int}
    {acts : List (Action ι)}
    (hrun : StepFn.run step (start garbage timeout) acts = some s)
    (ho : s.owner = Owner.destroyed) :
    s.deleted = true <->
      StepFn.Meets step FindsLoop (start garbage timeout) acts := by
  have hstart : Keeping (start garbage timeout : Loopthread ι) :=
    iff_of_false id nofun
  constructor
  · intro hdeleted
    have hinv : forall (s : Loopthread ι) a t, Keeping s ∨ Leaking s ->
        step s a = some t -> Keeping t ∨ Leaking t := by
      rintro s a t (h | h) hstep
      · exact (h.next (step_steps hstep)).imp And.right And.right
      · exact Or.inr (h.next (step_steps hstep))
    have henter : forall (s : Loopthread ι) a t, Keeping s ∨ Leaking s ->
        step s a = some t -> ¬ FindsLoop s a -> Leaking t := by
      rintro s a t (h | h) hstep hfinds
      · rcases h.next (step_steps hstep) with hyes | hno
        · exact absurd hyes.left hfinds
        · exact hno.right
      · exact h.next (step_steps hstep)
    have hstay : forall (s : Loopthread ι) a t, Keeping s ∨ Leaking s ->
        Leaking s -> step s a = some t -> Leaking t := by
      intro s a t _ h hstep
      exact h.next (step_steps hstep)
    refine StepFn.meets_of_not_absorbed hinv henter hstay (Or.inl hstart) hrun ?_
    intro hleaking
    rw [hleaking.right] at hdeleted
    cases hdeleted
  · intro hmeets
    have hstep : forall (s : Loopthread ι) a t, Keeping s -> FindsLoop s a ->
        step s a = some t -> Keeping t := by
      intro s a t h hfinds hstep
      rcases h.next (step_steps hstep) with hyes | hno
      · exact hyes.right
      · exact absurd hfinds hno.left
    have hkeeping : Keeping s :=
      StepFn.run_invariant_of_meets hstep hstart hmeets hrun
    exact hkeeping.mp (ho ▸ trivial)

theorem run_sound [DecidableEq ι] {garbage timeout : Int}
    {acts : List (Action ι)}
    (hrun : StepFn.run step (start garbage timeout) acts = some s) :
    Sound s := by
  have hpres : forall (s : Loopthread ι) a t, Sound s ->
      step s a = some t -> Sound t := by
    intro s a t h hstep
    exact h.next (step_steps hstep)
  exact StepFn.run_invariant hpres (start_sound garbage timeout) hrun

end Loopthread

end MoonNet
