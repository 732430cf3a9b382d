import MoonNet.Ringbuff.Accesses
import MoonNet.Ringbuff.Spsc

/-!
# A thread that observes

While one thread pushes and another one pops, a third one calls `size`, `empty`
or `full`.  Such a call loads both indices, one after the other, and answers
from the two values.  The answer describes a length that the queue has had as
long as the second index does not move once the first one has.
-/

namespace MoonNet

open Foundation
open Foundation.Circular

universe u

namespace Ringbuff

inductive Query where
  | size
  | empty
  | full
deriving DecidableEq, Repr

inductive Answer where
  | size (n : Nat)
  | empty (yes : Bool)
  | full (yes : Bool)
deriving DecidableEq, Repr

variable {T : Type u}

def answer (r : Ringbuff T) : Query -> Answer
  | Query.size => Answer.size r.size
  | Query.empty => Answer.empty r.empty
  | Query.full => Answer.full r.full

/--
The observing thread.  `size` loads `head_` first; the operands of `==` in
`empty` and `full` may be evaluated in either order.
-/
inductive Observer where
  | idle
  | loadHead (q : Query)
  | loadTail (q : Query) (head : Nat)
  | loadTailFirst (q : Query)
  | loadHeadLast (q : Query) (tail : Nat)
  | returned (a : Answer)
deriving DecidableEq, Repr

def Observer.Busy : Observer -> Bool
  | Observer.idle | Observer.returned _ => false
  | _ => true

/--
The ring buffer with its two threads and the observing one.  The history
`lengths` holds the lengths of the queue at the moments of the observing call
that is in progress or has returned last.
-/
structure Observed (T : Type u) where
  threads : Spsc T
  observer : Observer
  lengths : List Nat

namespace Observed

def start (cell : Nat -> T) (size : Nat) : Observed T where
  threads := Spsc.start cell size
  observer := Observer.idle
  lengths := []

inductive Action (T : Type u) where
  | push (item : T)
  | pushMove (item : T)
  | pop
  | popMove
  | produce
  | consume
  | size
  | empty (tailFirst : Bool)
  | full (tailFirst : Bool)
  | observe
deriving DecidableEq, Repr

def others (s : Observed T) (next : Option (Spsc T)) : Option (Observed T) :=
  next.map fun threads =>
    { s with
      threads := threads
      lengths :=
        if s.observer.Busy then s.lengths ++ [threads.ring.held]
        else s.lengths }

def call (s : Observed T) (entry : Observer) : Option (Observed T) :=
  if s.observer.Busy then none
  else
    some { s with observer := entry, lengths := [s.threads.ring.held] }

def observe (s : Observed T) : Option (Observed T) :=
  let ring := s.threads.ring
  match s.observer with
  | Observer.idle | Observer.returned _ => none
  | Observer.loadHead q =>
      some { s with observer := Observer.loadTail q ring.head }
  | Observer.loadTail q head =>
      some { s with
        observer := Observer.returned (answer { ring with head := head } q) }
  | Observer.loadTailFirst q =>
      some { s with observer := Observer.loadHeadLast q ring.tail }
  | Observer.loadHeadLast q tail =>
      some { s with
        observer := Observer.returned (answer { ring with tail := tail } q) }

/-- The call of a function that is free to load `tail_` first. -/
def entry (q : Query) (tailFirst : Bool) : Observer :=
  if tailFirst then Observer.loadTailFirst q else Observer.loadHead q

def step (moved : T -> T) (s : Observed T) : Action T -> Option (Observed T)
  | Action.push item => s.others (s.threads.callPush item)
  | Action.pushMove item => s.others (s.threads.callPush item)
  | Action.pop =>
      s.others (s.threads.callConsumer (Consumer.popLoadTail false))
  | Action.popMove =>
      s.others (s.threads.callConsumer (Consumer.popLoadTail true))
  | Action.produce => s.others s.threads.produce
  | Action.consume => s.others (s.threads.consume moved)
  | Action.size => s.call (Observer.loadHead Query.size)
  | Action.empty tailFirst => s.call (entry Query.empty tailFirst)
  | Action.full tailFirst => s.call (entry Query.full tailFirst)
  | Action.observe => s.observe

/-!
## What a call may return
-/

end Observed

/--
A length that is returned is one of `lengths`, and a queue that is said to be
empty or full has had the length of such a queue.
-/
def Answer.Seen (capacity : Nat) (lengths : List Nat) : Answer -> Prop
  | Answer.size n => n ∈ lengths
  | Answer.empty yes => yes = true -> 0 ∈ lengths
  | Answer.full yes => yes = true -> capacity - 1 ∈ lengths

namespace Observed

/-- What a call has returned was so at some moment of the call. -/
def Linearizable (s : Observed T) : Prop :=
  match s.observer with
  | Observer.returned a => a.Seen s.threads.ring.capacity s.lengths
  | _ => True

def storesHead (s : Observed T) : Action T -> Bool
  | Action.produce =>
      match s.threads.producer with
      | Producer.storeHead _ _ => true
      | _ => false
  | _ => false

def storesTail (s : Observed T) : Action T -> Bool
  | Action.consume =>
      match s.threads.consumer with
      | Consumer.popStoreTail _ _ => true
      | _ => false
  | _ => false

/--
Between the two loads of a call, the index that is still to be loaded is not
stored once the other one is no longer what the call has loaded.
-/
def Steady (s : Observed T) (a : Action T) : Prop :=
  match s.observer with
  | Observer.loadTail _ head =>
      s.storesTail a = true -> s.threads.ring.head = head
  | Observer.loadHeadLast _ tail =>
      s.storesHead a = true -> s.threads.ring.tail = tail
  | _ => True

instance (s : Observed T) (a : Action T) : Decidable (s.Steady a) :=
  match ho : s.observer with
  | Observer.loadTail _ head =>
      decidable_of_iff (s.storesTail a = true -> s.threads.ring.head = head)
        (by simp [Steady, ho])
  | Observer.loadHeadLast _ tail =>
      decidable_of_iff (s.storesHead a = true -> s.threads.ring.tail = tail)
        (by simp [Steady, ho])
  | Observer.idle | Observer.loadHead _ | Observer.loadTailFirst _
  | Observer.returned _ => isTrue (by simp [Steady, ho])

/-!
## Answers
-/

end Observed

def Fits (r : Ringbuff T) : Prop :=
  r.Valid ∨ r.NoCells

theorem NoCells.held_eq {r : Ringbuff T} (h : r.NoCells) : r.held = 0 := by
  unfold held distance
  rw [h.capacity_eq, h.head_eq, h.tail_eq]

theorem NoCells.size_eq {r : Ringbuff T} (h : r.NoCells) : r.size = r.held := by
  rw [h.held_eq]
  unfold size
  rw [h.head_eq, h.tail_eq, if_pos (Nat.le_refl 0)]
  rfl

theorem Fits.answer_seen {r : Ringbuff T} (h : r.Fits) {lengths : List Nat}
    (hheld : r.held ∈ lengths) (q : Query) :
    (answer r q).Seen r.capacity lengths := by
  cases q with
  | size =>
      have hsize : r.size = r.held := by
        cases h with
        | inl hvalid => exact hvalid.size_eq
        | inr hnone => exact hnone.size_eq
      show r.size ∈ lengths
      rw [hsize]
      exact hheld
  | empty =>
      intro hempty
      have hsame : r.head = r.tail := beq_iff_eq.mp hempty
      have hzero : r.held = 0 := by
        cases h with
        | inl hvalid => exact hvalid.held_eq_zero_iff.mpr hsame.symm
        | inr hnone => exact hnone.held_eq
      rw [<- hzero]
      exact hheld
  | full =>
      intro hfull
      have hnext : next r.capacity r.head = r.tail := beq_iff_eq.mp hfull
      cases h with
      | inl hvalid =>
          rw [<- hvalid.next_head_eq_tail_iff.mp hnext]
          exact hheld
      | inr hnone =>
          rw [hnone.capacity_eq, hnone.head_eq, hnone.tail_eq] at hnext
          exact absurd hnext (by decide)

theorem Fits.both {r r' : Ringbuff T} (h : r.Fits) (h' : r'.Fits)
    (hcap : r'.capacity = r.capacity) :
    (r.Valid ∧ r'.Valid) ∨ (r.NoCells ∧ r'.NoCells) := by
  have hdiffer : forall {a b : Ringbuff T}, a.Valid -> b.NoCells ->
      a.capacity ≠ b.capacity := by
    intro a b hvalid hnone heq
    have hpos := hvalid.capacity_pos
    rw [heq, hnone.capacity_eq] at hpos
    exact Nat.lt_irrefl 0 hpos
  rcases h with hvalid | hnone
  · rcases h' with hvalid' | hnone'
    · exact Or.inl ⟨hvalid, hvalid'⟩
    · exact absurd hcap.symm (hdiffer hvalid hnone')
  · rcases h' with hvalid' | hnone'
    · exact absurd hcap (hdiffer hvalid' hnone)
    · exact Or.inr ⟨hnone, hnone'⟩

theorem Fits.with_head {r r' : Ringbuff T} {head : Nat}
    (h : Fits { r with head := head }) (h' : r'.Fits)
    (hcap : r'.capacity = r.capacity) : Fits { r' with head := head } := by
  rcases h.both h' hcap with ⟨hold, hnew⟩ | ⟨hold, hnew⟩
  · exact Or.inl { hnew with
      head_lt := Nat.lt_of_lt_of_eq hold.head_lt hcap.symm }
  · exact Or.inr { hnew with head_eq := hold.head_eq }

theorem Fits.with_tail {r r' : Ringbuff T} {tail : Nat}
    (h : Fits { r with tail := tail }) (h' : r'.Fits)
    (hcap : r'.capacity = r.capacity) : Fits { r' with tail := tail } := by
  rcases h.both h' hcap with ⟨hold, hnew⟩ | ⟨hold, hnew⟩
  · exact Or.inl { hnew with
      tail_lt := Nat.lt_of_lt_of_eq hold.tail_lt hcap.symm }
  · exact Or.inr { hnew with tail_eq := hold.tail_eq }

/-!
## The other threads
-/

namespace Spsc

variable {s s' : Spsc T}

def Pops (s : Spsc T) : Prop :=
  match s.consumer with
  | Consumer.drainLoadHead | Consumer.drainLoadTail _
  | Consumer.copyLoop _ _ _ _ => False
  | _ => True

def Sound (s : Spsc T) : Prop :=
  (s.Inv ∧ s.Pops) ∨ s.NoCells

theorem start_sound (cell : Nat -> T) {size : Nat} (hlt : size < SIZE_T) :
    (start cell size).Sound := by
  by_cases hsize : size <= 2 ^ 63
  · exact Or.inl ⟨start_inv cell hsize, trivial⟩
  · exact Or.inr (start_noCells cell hlt (Nat.lt_of_not_le hsize))

theorem Sound.fits (h : s.Sound) : s.ring.Fits := by
  rcases h with ⟨hinv, _⟩ | hnone
  · exact Or.inl hinv.valid
  · exact Or.inr {
      capacity_eq := hnone.capacity_eq, block := hnone.block
      head_eq := hnone.head_eq, tail_eq := hnone.tail_eq }

theorem produce_indices (hstep : s.produce = some s') :
    s'.ring.capacity = s.ring.capacity ∧ s'.ring.tail = s.ring.tail ∧
      (s'.ring.head = s.ring.head ∨
        exists item nhead, s.producer = Producer.storeHead item nhead) := by
  cases produce_iff.mp hstep with
  | loadsHead item hp => exact ⟨rfl, rfl, Or.inl rfl⟩
  | fails item head hp hfull => exact ⟨rfl, rfl, Or.inl rfl⟩
  | finds item head hp hroom => exact ⟨rfl, rfl, Or.inl rfl⟩
  | writes item head nhead buffer hp hwrite => exact ⟨rfl, rfl, Or.inl rfl⟩
  | stores item nhead hp => exact ⟨rfl, rfl, Or.inr ⟨item, nhead, hp⟩⟩

theorem consume_indices {moved : T -> T} (hpops : s.Pops)
    (hstep : s.consume moved = some s') :
    s'.Pops ∧ s'.ring.capacity = s.ring.capacity ∧
      s'.ring.head = s.ring.head ∧
      (s'.ring.tail = s.ring.tail ∨
        exists item tail, s.consumer = Consumer.popStoreTail item tail) := by
  have hpc : forall {c : Consumer T}, s.consumer = c ->
      Pops { s with consumer := c } := by
    intro c hc
    rw [<- hc]
    exact hpops
  cases consume_iff.mp hstep with
  | loadsTail move hc => exact ⟨trivial, rfl, rfl, Or.inl rfl⟩
  | fails move tail hc hempty => exact ⟨trivial, rfl, rfl, Or.inl rfl⟩
  | finds move tail hc hitem => exact ⟨trivial, rfl, rfl, Or.inl rfl⟩
  | reads move tail t hc hobtain =>
      rcases obtain_eq_some.mp hobtain with ⟨buffer, x, _, hs'⟩
      rw [hs']
      exact ⟨trivial, rfl, rfl, Or.inl rfl⟩
  | stores item tail hc =>
      exact ⟨trivial, rfl, rfl, Or.inr ⟨item, tail, hc⟩⟩
  | drainsHead hc => exact (hpc hc).elim
  | drainsNothing head hc hempty => exact (hpc hc).elim
  | drainsRange head hc hitems hlt => exact (hpc hc).elim
  | drainsAround head hc hitems hge => exact (hpc hc).elim
  | copies i limit wraps head t hc hlt hobtain => exact (hpc hc).elim
  | wraps i limit head hc hend => exact (hpc hc).elim
  | ends i limit head hc hend => exact (hpc hc).elim

namespace Sound

theorem callPush (h : s.Sound) {item : T}
    (hstep : s.callPush item = some s') : s'.Sound := by
  rcases h with ⟨hinv, hpops⟩ | hnone
  · refine Or.inl ⟨hinv.callPush_inv hstep, ?_⟩
    rw [callPush_eq hstep]
    exact hpops
  · exact Or.inr (hnone.callPush_noCells hstep)

theorem callPop (h : s.Sound) {move : Bool}
    (hstep : s.callConsumer (Consumer.popLoadTail move) = some s') :
    s'.Sound := by
  have hentry : ConsumerInv s.ring 0 (Consumer.popLoadTail move) := rfl
  rcases h with ⟨hinv, _⟩ | hnone
  · refine Or.inl ⟨hinv.callConsumer_inv hentry hstep, ?_⟩
    rw [callConsumer_eq hstep]
    trivial
  · exact Or.inr (hnone.callPop_noCells hstep)

theorem produce (h : s.Sound) (hstep : s.produce = some s') : s'.Sound := by
  rcases h with ⟨hinv, hpops⟩ | hnone
  · refine Or.inl ⟨hinv.produce_inv hstep, ?_⟩
    unfold Pops
    rw [(produce_frame hstep).left]
    exact hpops
  · exact Or.inr (hnone.produce_noCells hstep)

theorem consume (h : s.Sound) {moved : T -> T}
    (hstep : s.consume moved = some s') :
    s'.Sound ∧ s'.ring.capacity = s.ring.capacity ∧
      s'.ring.head = s.ring.head ∧
      (s'.ring.tail = s.ring.tail ∨
        exists item tail, s.consumer = Consumer.popStoreTail item tail) := by
  rcases h with ⟨hinv, hpops⟩ | hnone
  · rcases consume_indices hpops hstep with ⟨hpops', hindices⟩
    exact ⟨Or.inl ⟨hinv.consume_inv hstep, hpops'⟩, hindices⟩
  · have hnone' := hnone.consume_noCells hstep
    exact ⟨Or.inr hnone', hnone'.capacity_eq.trans hnone.capacity_eq.symm,
      hnone'.head_eq.trans hnone.head_eq.symm,
      Or.inl (hnone'.tail_eq.trans hnone.tail_eq.symm)⟩

end Sound

end Spsc

/-!
## Invariant
-/

namespace Observed

variable {s s' : Observed T}

def snapshot (s : Observed T) : Option (Ringbuff T) :=
  let ring := s.threads.ring
  match s.observer with
  | Observer.idle | Observer.returned _ => none
  | Observer.loadHead _ | Observer.loadTailFirst _ => some ring
  | Observer.loadTail _ head => some { ring with head := head }
  | Observer.loadHeadLast _ tail => some { ring with tail := tail }

structure Inv (s : Observed T) : Prop where
  sound : s.threads.Sound
  snapshot_seen : forall r, s.snapshot = some r ->
    r.Fits ∧ r.held ∈ s.lengths
  linearizable : s.Linearizable

theorem start_inv (cell : Nat -> T) {size : Nat} (hlt : size < SIZE_T) :
    Inv (start cell size) where
  sound := Spsc.start_sound cell hlt
  snapshot_seen := nofun
  linearizable := trivial

namespace Inv

theorem call (h : Inv s) {entry : Observer}
    (hentry : exists q, entry = Observer.loadHead q ∨
      entry = Observer.loadTailFirst q)
    (hstep : s.call entry = some s') : Inv s' := by
  unfold Observed.call at hstep
  split at hstep
  · cases hstep
  · cases hstep
    have hheld : s.threads.ring.held ∈ [s.threads.ring.held] :=
      List.mem_singleton.mpr rfl
    rcases hentry with ⟨q, heq | heq⟩
    · subst heq
      exact {
        sound := h.sound, linearizable := trivial
        snapshot_seen := by
          intro r hr
          cases hr
          exact ⟨h.sound.fits, hheld⟩ }
    · subst heq
      exact {
        sound := h.sound, linearizable := trivial
        snapshot_seen := by
          intro r hr
          cases hr
          exact ⟨h.sound.fits, hheld⟩ }

theorem observe (h : Inv s) (hstep : s.observe = some s') : Inv s' := by
  have hseen := h.snapshot_seen
  unfold snapshot at hseen
  unfold Observed.observe at hstep
  cases ho : s.observer with
  | idle =>
      simp [ho] at hstep
  | returned a =>
      simp [ho] at hstep
  | loadHead q =>
      simp only [ho, Option.some.injEq] at hstep hseen
      subst hstep
      exact {
        sound := h.sound, linearizable := trivial
        snapshot_seen := fun r hr => hseen r (Option.some.inj hr) }
  | loadTailFirst q =>
      simp only [ho, Option.some.injEq] at hstep hseen
      subst hstep
      exact {
        sound := h.sound, linearizable := trivial
        snapshot_seen := fun r hr => hseen r (Option.some.inj hr) }
  | loadTail q head =>
      simp only [ho, Option.some.injEq] at hstep hseen
      subst hstep
      rcases hseen _ rfl with ⟨hfits, hheld⟩
      exact {
        sound := h.sound, snapshot_seen := nofun
        linearizable := hfits.answer_seen hheld q }
  | loadHeadLast q tail =>
      simp only [ho, Option.some.injEq] at hstep hseen
      subst hstep
      rcases hseen _ rfl with ⟨hfits, hheld⟩
      exact {
        sound := h.sound, snapshot_seen := nofun
        linearizable := hfits.answer_seen hheld q }

theorem others (h : Inv s) {next : Option (Spsc T)}
    (hsound : forall t, next = some t -> t.Sound ∧
      t.ring.capacity = s.threads.ring.capacity ∧
      (t.ring.tail = s.threads.ring.tail ∨
        t.ring.head = s.threads.ring.head ∧
          forall q head, s.observer = Observer.loadTail q head ->
            s.threads.ring.head = head) ∧
      (t.ring.head = s.threads.ring.head ∨
        t.ring.tail = s.threads.ring.tail ∧
          forall q tail, s.observer = Observer.loadHeadLast q tail ->
            s.threads.ring.tail = tail))
    (hstep : s.others next = some s') : Inv s' := by
  rcases Option.map_eq_some_iff.mp hstep with ⟨t, hnext, hs'⟩
  subst hs'
  rcases hsound t hnext with ⟨hsound, hcap, htail, hhead⟩
  have hseen := h.snapshot_seen
  have hlinear := h.linearizable
  unfold snapshot at hseen
  unfold Linearizable at hlinear
  have hlast : t.ring.held ∈ s.lengths ++ [t.ring.held] :=
    List.mem_append_right _ (List.mem_singleton.mpr rfl)
  constructor
  case sound =>
    exact hsound
  case snapshot_seen =>
    intro r hr
    unfold snapshot at hr
    cases ho : s.observer with
    | idle =>
        simp [ho] at hr
    | returned a =>
        simp [ho] at hr
    | loadHead q =>
        simp only [ho, Option.some.injEq] at hr
        subst hr
        exact ⟨hsound.fits, hlast⟩
    | loadTailFirst q =>
        simp only [ho, Option.some.injEq] at hr
        subst hr
        exact ⟨hsound.fits, hlast⟩
    | loadTail q head =>
        simp only [ho, Option.some.injEq] at hr hseen
        subst hr
        rcases hseen _ rfl with ⟨hfits, hheld⟩
        refine ⟨hfits.with_head hsound.fits hcap, ?_⟩
        rcases htail with hsame | ⟨hsame, hcurrent⟩
        · apply List.mem_append_left
          show distance t.ring.capacity t.ring.tail head ∈ s.lengths
          rw [hcap, hsame]
          exact hheld
        · have heq : t.ring.head = head := hsame.trans (hcurrent q head ho)
          rw [<- heq]
          exact hlast
    | loadHeadLast q tail =>
        simp only [ho, Option.some.injEq] at hr hseen
        subst hr
        rcases hseen _ rfl with ⟨hfits, hheld⟩
        refine ⟨hfits.with_tail hsound.fits hcap, ?_⟩
        rcases hhead with hsame | ⟨hsame, hcurrent⟩
        · apply List.mem_append_left
          show distance t.ring.capacity tail t.ring.head ∈ s.lengths
          rw [hcap, hsame]
          exact hheld
        · have heq : t.ring.tail = tail := hsame.trans (hcurrent q tail ho)
          rw [<- heq]
          exact hlast
  case linearizable =>
    unfold Linearizable
    cases ho : s.observer with
    | returned a =>
        rw [ho] at hlinear
        show a.Seen t.ring.capacity s.lengths
        rw [hcap]
        exact hlinear
    | _ => trivial

theorem calls (h : Inv s) {next : Option (Spsc T)}
    (hsound : forall t, next = some t -> t.Sound)
    (hring : forall t, next = some t -> t.ring = s.threads.ring)
    (hstep : s.others next = some s') : Inv s' := by
  apply h.others _ hstep
  intro t hnext
  refine ⟨hsound t hnext, ?_⟩
  rw [hring t hnext]
  exact ⟨rfl, Or.inl rfl, Or.inl rfl⟩

theorem produce (h : Inv s) (hsteady : s.Steady Action.produce)
    (hstep : s.others s.threads.produce = some s') : Inv s' := by
  apply h.others _ hstep
  intro t hnext
  rcases Spsc.produce_indices hnext with ⟨hcap, htail, hhead⟩
  refine ⟨h.sound.produce hnext, hcap, Or.inl htail, ?_⟩
  rcases hhead with hsame | ⟨item, nhead, hp⟩
  · exact Or.inl hsame
  · refine Or.inr ⟨htail, fun q tail ho => ?_⟩
    have hstores : s.storesHead Action.produce = true := by
      unfold storesHead
      rw [hp]
    unfold Steady at hsteady
    rw [ho] at hsteady
    exact hsteady hstores

theorem consume (h : Inv s) {moved : T -> T}
    (hsteady : s.Steady Action.consume)
    (hstep : s.others (s.threads.consume moved) = some s') : Inv s' := by
  apply h.others _ hstep
  intro t hnext
  rcases h.sound.consume hnext with ⟨hsound, hcap, hhead, htail⟩
  refine ⟨hsound, hcap, ?_, Or.inl hhead⟩
  rcases htail with hsame | ⟨item, tail, hc⟩
  · exact Or.inl hsame
  · refine Or.inr ⟨hhead, fun q head ho => ?_⟩
    have hstores : s.storesTail Action.consume = true := by
      unfold storesTail
      rw [hc]
    unfold Steady at hsteady
    rw [ho] at hsteady
    exact hsteady hstores

theorem step (h : Inv s) {moved : T -> T} {a : Action T}
    (hsteady : s.Steady a) (hstep : step moved s a = some s') : Inv s' := by
  have hentry : forall q tailFirst, exists q',
      entry q tailFirst = Observer.loadHead q' ∨
        entry q tailFirst = Observer.loadTailFirst q' := by
    intro q tailFirst
    cases tailFirst with
    | false => exact ⟨q, Or.inl rfl⟩
    | true => exact ⟨q, Or.inr rfl⟩
  cases a with
  | push item =>
      exact h.calls (fun t => h.sound.callPush)
        (fun t hnext => by rw [Spsc.callPush_eq hnext]) hstep
  | pushMove item =>
      exact h.calls (fun t => h.sound.callPush)
        (fun t hnext => by rw [Spsc.callPush_eq hnext]) hstep
  | pop =>
      exact h.calls (fun t => h.sound.callPop)
        (fun t hnext => by rw [Spsc.callConsumer_eq hnext]) hstep
  | popMove =>
      exact h.calls (fun t => h.sound.callPop)
        (fun t hnext => by rw [Spsc.callConsumer_eq hnext]) hstep
  | produce => exact h.produce hsteady hstep
  | consume => exact h.consume hsteady hstep
  | size => exact h.call ⟨Query.size, Or.inl rfl⟩ hstep
  | empty tailFirst => exact h.call (hentry Query.empty tailFirst) hstep
  | full tailFirst => exact h.call (hentry Query.full tailFirst) hstep
  | observe => exact h.observe hstep

end Inv

/-!
## Runs
-/

/--
In every run in which no index is stored after the other one has moved under a
call that has loaded it, each answer describes a moment of its call.
-/
theorem linearizable_of_steady (moved : T -> T) (cell : Nat -> T) (size : Nat)
    (hlt : size < SIZE_T) (acts : List (Action T)) (s : Observed T)
    (hsteady : StepFn.Meets (step moved) Steady (start cell size) acts)
    (hrun : StepFn.run (step moved) (start cell size) acts = some s) :
    s.Linearizable := by
  have hpres : forall s a s', Inv s -> Steady s a ->
      step moved s a = some s' -> Inv s' := by
    intro s a s' h hguard hstep
    exact h.step hguard hstep
  have hinv : Inv s :=
    StepFn.run_invariant_of_meets hpres (start_inv cell hlt) hsteady hrun
  exact hinv.linearizable

def pushed (item : Nat) : List (Action Nat) :=
  Action.push item :: List.replicate 4 Action.produce

def popped : List (Action Nat) :=
  Action.pop :: List.replicate 4 Action.consume

/-- One of two items is popped between the loads, and `size` returns 1. -/
theorem linearizable_of_steady_popped :
    exists s : Observed Nat,
      StepFn.run (step id) (start (fun _ => 0) 4)
          (pushed 7 ++ pushed 8 ++ Action.size :: Action.observe ::
            popped ++ [Action.observe]) = some s ∧
        s.observer = Observer.returned (Answer.size 1) ∧ s.Linearizable := by
  have hsteady : StepFn.Meets (step id) Steady (start (fun _ => 0) 4)
      (pushed 7 ++ pushed 8 ++ Action.size :: Action.observe ::
        popped ++ [Action.observe]) := by
    decide
  exact ⟨_, rfl, rfl, linearizable_of_steady id (fun _ => 0) 4 (by decide) _ _
    hsteady rfl⟩

theorem exists_not_linearizable (c : Nat) {acts : List (Action Nat)} {size : Nat}
    {a : Answer} {lengths : List Nat}
    (hrun : (StepFn.run (step id) (start (fun _ => 0) size) acts).map
      (fun s => (s.observer, s.lengths, s.threads.ring.capacity)) =
        some (Observer.returned a, lengths, c))
    (hseen : ¬ a.Seen c lengths) :
    exists s : Observed Nat,
      StepFn.run (step id) (start (fun _ => 0) size) acts = some s ∧
        s.observer = Observer.returned a ∧ s.lengths = lengths ∧
          ¬ s.Linearizable := by
  rcases Option.map_eq_some_iff.mp hrun with ⟨s, hs, heq⟩
  simp only [Prod.mk.injEq] at heq
  rcases heq with ⟨hobserver, hlengths, hcap⟩
  refine ⟨s, hs, hobserver, hlengths, ?_⟩
  unfold Linearizable
  rw [hobserver, hlengths, hcap]
  exact hseen

/--
A push and a pop between the loads: for a queue of at most one item that has
room for three, `size` returns 3 and `full` returns true.
-/
theorem answers_of_no_moment :
    (exists s : Observed Nat,
      StepFn.run (step id) (start (fun _ => 0) 4)
          (Action.size :: Action.observe :: pushed 7 ++ popped ++
            [Action.observe]) = some s ∧
        s.observer = Observer.returned (Answer.size 3) ∧
        s.lengths = [0, 0, 0, 0, 0, 1, 1, 1, 1, 1, 0] ∧ ¬ s.Linearizable) ∧
      exists s : Observed Nat,
        StepFn.run (step id) (start (fun _ => 0) 4)
            (Action.full false :: Action.observe :: pushed 7 ++ popped ++
              [Action.observe]) = some s ∧
          s.observer = Observer.returned (Answer.full true) ∧
          s.lengths = [0, 0, 0, 0, 0, 1, 1, 1, 1, 1, 0] ∧
          ¬ s.Linearizable := by
  constructor
  · apply exists_not_linearizable 4
    · decide +kernel
    · show ¬ 3 ∈ [0, 0, 0, 0, 0, 1, 1, 1, 1, 1, 0]
      decide
  · apply exists_not_linearizable 4
    · decide +kernel
    · intro h
      exact absurd (h rfl) (by decide)

end Observed

end Ringbuff

end MoonNet
