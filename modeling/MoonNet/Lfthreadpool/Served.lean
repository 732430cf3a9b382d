import MoonNet.Foundation.Parts
import MoonNet.Lfthreadpool.AtWork

/-!
# How a static pool serves its tasks

Each worker invokes what the pool has dealt to it, in order, and no task is
invoked more often than it was accepted.  After `t_shutdown` all accepted tasks
have been invoked exactly if every worker left its polling loop with an empty
ring buffer.
-/

namespace MoonNet

open Foundation
open Ringbuff

universe u

/-!
# What a step does to the client of a worker
-/

namespace Lfthread

variable {τ : Type u} {w w' : Lfthread τ} {moved : Task τ -> Task τ}

def Client.Stopping : Client τ -> Prop
  | Client.running | Client.enqueue _ => False
  | _ => True

theorem enqueue_client {t : τ} {a : Action τ}
    (ha : a = Action.enqueueTask t ∨ a = Action.enqueueTaskMove t)
    (hstep : w.step moved a = some w') :
    w'.client = Client.enqueue t ∧ w'.accepted = w.accepted := by
  have hcall : w.callEnqueue t = some w' := by
    rcases ha with rfl | rfl
    · exact hstep
    · exact hstep
  unfold callEnqueue at hcall
  split at hcall
  · rcases withBuffer_eq_some.mp hcall with ⟨b, _, rfl⟩
    exact ⟨rfl, rfl⟩
  · cases hcall

theorem push_client {t : τ} (hc : w.client = Client.enqueue t)
    (hstill : forall ok, w.buffer.producer ≠ Producer.returned ok)
    (hstep : w.clientStep = some w') :
    w'.client = Client.enqueue t ∧ w'.accepted = w.accepted := by
  simp only [clientStep, hc] at hstep
  rcases withBuffer_eq_some.mp hstep with ⟨b, _, rfl⟩
  exact ⟨hc, rfl⟩

theorem return_client {t : τ} {ok : Bool} (hc : w.client = Client.enqueue t)
    (hok : w.buffer.producer = Producer.returned ok)
    (hstep : w.clientStep = some w') :
    w'.client = Client.running ∧
      w'.accepted = if ok then w.accepted ++ [t] else w.accepted := by
  simp only [clientStep, hc, hok] at hstep
  cases hstep
  exact ⟨rfl, rfl⟩

theorem shutdown_client (hstep : w.callShutdown = some w') :
    w'.client.Stopping ∧ w'.accepted = w.accepted := by
  unfold callShutdown at hstep
  split at hstep
  · cases hstep
    exact ⟨trivial, rfl⟩
  · cases hstep

theorem stopping_client (hc : w.client.Stopping)
    (hstep : w.clientStep = some w') :
    w'.client.Stopping ∧ w'.accepted = w.accepted := by
  have hne : forall t, w.client ≠ Client.enqueue t := by
    intro t hno
    rw [hno] at hc
    exact hc
  refine ⟨?_, (clientStep_frame hstep).right.right hne⟩
  cases hplace : w.client with
  | running =>
      rw [hplace] at hc
      exact hc.elim
  | enqueue t =>
      rw [hplace] at hc
      exact hc.elim
  | testShutdown =>
      simp only [clientStep, hplace] at hstep
      split at hstep
      · cases hstep
        trivial
      · cases hstep
        trivial
  | setShutdown =>
      simp only [clientStep, hplace] at hstep
      cases hstep
      trivial
  | pushWakeup =>
      simp only [clientStep, hplace] at hstep
      rcases withBuffer_eq_some.mp hstep with ⟨b, _, rfl⟩
      trivial
  | waking =>
      simp only [clientStep, hplace] at hstep
      split at hstep
      · cases hstep
        trivial
      · rcases withBuffer_eq_some.mp hstep with ⟨b, _, rfl⟩
        show w.client.Stopping
        rw [hplace]
        trivial
  | join =>
      simp only [clientStep, hplace] at hstep
      split at hstep
      · cases hstep
        trivial
      · cases hstep
  | done =>
      simp only [clientStep, hplace] at hstep
      cases hstep

end Lfthread

namespace StaticPool

variable {τ : Type u} {moved : Task τ -> Task τ} {s s' : StaticPool τ}

/-!
# Where the client is
-/

def Client.offering : Client τ -> List (Nat × τ)
  | Client.adding idx t => [(idx, t)]
  | _ => []

def offered (s : StaticPool τ) : List (Nat × τ) :=
  s.dealt ++ s.client.offering

def Place (s : StaticPool τ) (i : Nat) (c : Lfthread.Client τ) : Prop :=
  match s.client with
  | Client.running =>
      c = if s.shutdown then Lfthread.Client.done else Lfthread.Client.running
  | Client.adding idx t =>
      s.shutdown = false ∧ c = if i = idx then Lfthread.Client.enqueue t
        else Lfthread.Client.running
  | Client.stopping j =>
      s.shutdown = true ∧ (i < j -> c = Lfthread.Client.done) ∧
        (j < i -> c = Lfthread.Client.running) ∧
        (i = j -> c = Lfthread.Client.running ∨ c.Stopping)

structure Inv (s : StaticPool τ) : Prop where
  workers : forall w, w ∈ s.workers -> Lfthread.Inv w
  places : forall i w, s.workers[i]? = some w -> s.Place i w.client
  dealt : forall i w, s.workers[i]? = some w ->
    w.accepted = Parts.part s.dealt i
  bound : forall p, p ∈ s.offered -> p.fst < s.workers.length

theorem start_inv (hardware : Nat) (n : Int) {size : UInt64}
    (hsize : size.toNat <= 2 ^ 63) :
    Inv (start hardware n size : StaticPool τ) where
  workers := by
    intro w hw
    rw [List.eq_of_mem_replicate hw]
    exact Lfthread.start_inv hsize
  places := by
    intro i w hw
    rw [List.eq_of_mem_replicate (List.mem_of_getElem? hw)]
    rfl
  dealt := by
    intro i w hw
    rw [List.eq_of_mem_replicate (List.mem_of_getElem? hw)]
    rfl
  bound := nofun

theorem set_cases {ws : List (Lfthread τ)} {i j : Nat} {v w' : Lfthread τ}
    (h : (ws.set j w')[i]? = some v) :
    i = j ∧ v = w' ∨ i ≠ j ∧ ws[i]? = some v := by
  by_cases hij : j = i
  · subst hij
    have hlt : j < ws.length := by
      by_contra hno
      rw [List.getElem?_eq_none (by rw [List.length_set]; omega)] at h
      cases h
    rw [List.getElem?_set_self hlt] at h
    cases h
    exact Or.inl ⟨rfl, rfl⟩
  · rw [List.getElem?_set_ne hij] at h
    exact Or.inr ⟨fun hno => hij hno.symm, h⟩

theorem Inv.set (h : Inv s) {t : StaticPool τ} {j : Nat} {w w' : Lfthread τ}
    {b : Lfthread.Action τ} (hw : s.workers[j]? = some w)
    (hstep : w.step moved b = some w')
    (hworkers : t.workers = s.workers.set j w')
    (hplace : t.Place j w'.client)
    (hothers : forall i c, i ≠ j -> s.Place i c -> t.Place i c)
    (haccepted : w'.accepted = Parts.part t.dealt j)
    (hdealt : forall i, i ≠ j -> Parts.part t.dealt i = Parts.part s.dealt i)
    (hbound : forall p, p ∈ t.offered -> p ∈ s.offered ∨ p.fst = j) :
    Inv t where
  workers := by
    intro v hv
    rw [hworkers] at hv
    rcases List.mem_or_eq_of_mem_set hv with hmem | rfl
    · exact h.workers v hmem
    · exact (h.workers w (List.mem_of_getElem? hw)).step_inv hstep
  places := by
    intro i v hv
    rw [hworkers] at hv
    rcases set_cases hv with ⟨rfl, rfl⟩ | ⟨hne, hold⟩
    · exact hplace
    · exact hothers i v.client hne (h.places i v hold)
  dealt := by
    intro i v hv
    rw [hworkers] at hv
    rcases set_cases hv with ⟨rfl, rfl⟩ | ⟨hne, hold⟩
    · exact haccepted
    · rw [hdealt i hne]
      exact h.dealt i v hold
  bound := by
    intro p hp
    rw [hworkers, List.length_set]
    rcases hbound p hp with hmem | heq
    · exact h.bound p hmem
    · rw [heq]
      exact (List.getElem?_eq_some_iff.mp hw).1

theorem Inv.goto (h : Inv s) {t : StaticPool τ}
    (hworkers : t.workers = s.workers) (hdealt : t.dealt = s.dealt)
    (hclient : t.client.offering = [])
    (hplaces : forall i w, s.workers[i]? = some w -> t.Place i w.client) :
    Inv t where
  workers := by rw [hworkers]; exact h.workers
  places := by rw [hworkers]; exact hplaces
  dealt := by rw [hworkers, hdealt]; exact h.dealt
  bound := by
    intro p hp
    unfold offered at hp
    rw [hclient, List.append_nil, hdealt] at hp
    rw [hworkers]
    exact h.bound p (List.mem_append_left _ hp)

theorem place_running (hc : s.client = Client.running) {i : Nat}
    {c : Lfthread.Client τ} :
    s.Place i c <-> c = if s.shutdown then Lfthread.Client.done
      else Lfthread.Client.running := by
  unfold Place
  rw [hc]

theorem place_adding {idx : Nat} {t : τ} (hc : s.client = Client.adding idx t)
    {i : Nat} {c : Lfthread.Client τ} :
    s.Place i c <-> s.shutdown = false ∧ c = if i = idx then
      Lfthread.Client.enqueue t else Lfthread.Client.running := by
  unfold Place
  rw [hc]

theorem place_stopping {j : Nat} (hc : s.client = Client.stopping j) {i : Nat}
    {c : Lfthread.Client τ} :
    s.Place i c <-> s.shutdown = true ∧ (i < j -> c = Lfthread.Client.done) ∧
      (j < i -> c = Lfthread.Client.running) ∧
      (i = j -> c = Lfthread.Client.running ∨ c.Stopping) := by
  unfold Place
  rw [hc]

theorem Inv.adds (h : Inv s) {t : τ} {b : Lfthread.Action τ}
    {w w' : Lfthread τ}
    (hb : b = Lfthread.Action.enqueueTask t ∨
      b = Lfthread.Action.enqueueTaskMove t)
    (hc : s.client = Client.running) (hshutdown : s.shutdown = false)
    (hw : s.workers[s.getnext]? = some w)
    (hstep : w.step moved b = some w') :
    Inv { s with
      next := s.getnext
      client := Client.adding s.getnext t
      workers := s.workers.set s.getnext w' } := by
  have hcall := Lfthread.enqueue_client hb hstep
  refine h.set hw hstep rfl ?_ ?_ ?_ (fun _ _ => rfl) ?_
  · refine (place_adding rfl).mpr ⟨hshutdown, ?_⟩
    rw [if_pos rfl]
    exact hcall.left
  · intro i c hne hplace
    refine (place_adding rfl).mpr ⟨hshutdown, ?_⟩
    rw [if_neg hne]
    rw [place_running hc, hshutdown] at hplace
    exact hplace
  · rw [hcall.right]
    exact h.dealt s.getnext w hw
  · intro p hp
    rcases List.mem_append.mp hp with hdealt | hnew
    · exact Or.inl (List.mem_append_left _ hdealt)
    · rw [List.mem_singleton.mp hnew]
      exact Or.inr rfl

theorem Inv.pushes (h : Inv s) {idx : Nat} {t : τ} {w w' : Lfthread τ}
    (hc : s.client = Client.adding idx t) (hw : s.workers[idx]? = some w)
    (hstill : forall ok, w.buffer.producer ≠ Producer.returned ok)
    (hstep : w.clientStep = some w') :
    Inv { s with workers := s.workers.set idx w' } := by
  have hplace := (place_adding hc).mp (h.places idx w hw)
  rw [if_pos rfl] at hplace
  have hpush := Lfthread.push_client hplace.right hstill hstep
  have hone : w.step id Lfthread.Action.client = some w' := hstep
  refine h.set hw hone rfl ?_ (fun _ _ _ hplace => hplace) ?_ (fun _ _ => rfl)
    fun p hp => Or.inl hp
  · refine (place_adding hc).mpr ⟨hplace.left, ?_⟩
    rw [if_pos rfl]
    exact hpush.left
  · rw [hpush.right]
    exact h.dealt idx w hw

theorem Inv.returns (h : Inv s) {idx : Nat} {t : τ} {ok : Bool}
    {w w' : Lfthread τ} (hc : s.client = Client.adding idx t)
    (hw : s.workers[idx]? = some w)
    (hok : w.buffer.producer = Producer.returned ok)
    (hstep : w.clientStep = some w') :
    Inv { s.accept idx t ok with workers := s.workers.set idx w' } := by
  have hplace := (place_adding hc).mp (h.places idx w hw)
  rw [if_pos rfl] at hplace
  have hreturn := Lfthread.return_client hplace.right hok hstep
  have hone : w.step id Lfthread.Action.client = some w' := hstep
  refine h.set hw hone rfl ?_ ?_ ?_ ?_ ?_
  · refine (place_running rfl).mpr ?_
    show w'.client = if s.shutdown then _ else _
    rw [hplace.left]
    exact hreturn.left
  · intro i c hne hother
    rw [place_adding hc, if_neg hne] at hother
    refine (place_running rfl).mpr ?_
    show c = if s.shutdown then _ else _
    rw [hplace.left]
    exact hother.right
  · rw [hreturn.right, h.dealt idx w hw]
    show _ = Parts.part (if ok then s.dealt ++ [(idx, t)] else s.dealt) idx
    cases ok with
    | false => rfl
    | true =>
        show _ = Parts.part (s.dealt ++ [(idx, t)]) idx
        rw [Parts.part_append, Parts.part_self]
        rfl
  · intro i hne
    show Parts.part (if ok then s.dealt ++ [(idx, t)] else s.dealt) i = _
    cases ok with
    | false => rfl
    | true =>
        show Parts.part (s.dealt ++ [(idx, t)]) i = _
        rw [Parts.part_append, Parts.part_other (Ne.symm hne), List.append_nil]
  · intro p hp
    have hmem : p ∈ (if ok then s.dealt ++ [(idx, t)] else s.dealt) ++ [] := hp
    rw [List.append_nil] at hmem
    cases ok with
    | false => exact Or.inl (List.mem_append_left _ hmem)
    | true =>
        rcases List.mem_append.mp hmem with hdealt | hnew
        · exact Or.inl (List.mem_append_left _ hdealt)
        · rw [List.mem_singleton.mp hnew]
          exact Or.inr rfl

theorem Inv.stops (h : Inv s) {i : Nat} {b : Lfthread.Action τ}
    {w w' : Lfthread τ} (hc : s.client = Client.stopping i)
    (hw : s.workers[i]? = some w)
    (hb : b = Lfthread.Action.tShutdown ∧ w.client = Lfthread.Client.running ∨
      b = Lfthread.Action.client ∧ w.client ≠ Lfthread.Client.running)
    (hstep : w.step moved b = some w') :
    Inv { s with workers := s.workers.set i w' } := by
  have hplace := (place_stopping hc).mp (h.places i w hw)
  have hstop : w'.client.Stopping ∧ w'.accepted = w.accepted := by
    rcases hb with ⟨rfl, _⟩ | ⟨rfl, hne⟩
    · exact Lfthread.shutdown_client hstep
    · have hstopping := (hplace.right.right.right rfl).resolve_left hne
      exact Lfthread.stopping_client hstopping hstep
  refine h.set hw hstep rfl ?_ (fun _ _ _ hplace => hplace) ?_ (fun _ _ => rfl)
    fun p hp => Or.inl hp
  · refine (place_stopping hc).mpr ⟨hplace.left, ?_, ?_, ?_⟩
    · intro hno
      exact absurd hno (Nat.lt_irrefl i)
    · intro hno
      exact absurd hno (Nat.lt_irrefl i)
    · intro _
      exact Or.inr hstop.left
  · rw [hstop.right]
    exact h.dealt i w hw

theorem Inv.next (h : Inv s) {a : Action τ} (hsteps : Steps moved s a s') :
    Inv s' := by
  cases hsteps with
  | refuses hc hshutdown => exact h
  | skips hc hshutdown hnone =>
      refine h.goto rfl rfl ?_ h.places
      show s.client.offering = []
      rw [hc]
      rfl
  | adds hb hc hshutdown hw hstep => exact h.adds hb hc hshutdown hw hstep
  | shuts hc hshutdown =>
      refine h.goto rfl rfl rfl ?_
      intro i w hw
      have hplace := (place_running hc).mp (h.places i w hw)
      rw [hshutdown] at hplace
      exact (place_stopping rfl).mpr ⟨rfl, fun hno => absurd hno (by omega),
        fun _ => hplace, fun _ => Or.inl hplace⟩
  | pushes hc hw hstill hstep => exact h.pushes hc hw hstill hstep
  | returns hc hw hok hstep => exact h.returns hc hw hok hstep
  | stops hc hw hb hstep => exact h.stops hc hw hb hstep
  | @stopped j v hc hv hdone =>
      refine h.goto rfl rfl rfl ?_
      intro i w hw
      have hplace := (place_stopping hc).mp (h.places i w hw)
      refine (place_stopping rfl).mpr ⟨hplace.left, ?_, ?_, ?_⟩
      · intro hlt
        rcases Nat.lt_succ_iff_lt_or_eq.mp hlt with hbefore | rfl
        · exact hplace.right.left hbefore
        · rw [hw] at hv
          cases hv
          exact hdone
      · intro hlt
        exact hplace.right.right.left (Nat.lt_of_succ_lt hlt)
      · rintro rfl
        exact Or.inl (hplace.right.right.left (Nat.lt_succ_self j))
  | @ends j hc hnone =>
      refine h.goto rfl rfl rfl ?_
      intro i w hw
      have hplace := (place_stopping hc).mp (h.places i w hw)
      refine (place_running rfl).mpr ?_
      show w.client = if s.shutdown then _ else _
      rw [hplace.left, if_pos rfl]
      apply hplace.right.left
      have hlt := (List.getElem?_eq_some_iff.mp hw).1
      have hle := List.getElem?_eq_none_iff.mp hnone
      omega
  | @works j w w' hw hstep =>
      have hsame := Lfthread.workerStep_client hstep
      refine h.set hw hstep rfl ?_ (fun _ _ _ hplace => hplace) ?_
        (fun _ _ => rfl) fun p hp => Or.inl hp
      · rw [hsame.left]
        exact h.places j w hw
      · rw [hsame.right]
        exact h.dealt j w hw

/-!
# What has been invoked
-/

def invokedBy (s : StaticPool τ) (i : Nat) : List τ :=
  match s.workers[i]? with
  | none => []
  | some w => w.invokedTasks

def invoked (s : StaticPool τ) : List τ :=
  Parts.joined s.workers.length s.invokedBy

theorem part_offering {i : Nat} {w : Lfthread τ} (h : s.Place i w.client) :
    Parts.part s.client.offering i = w.client.pending := by
  cases hc : s.client with
  | running =>
      rw [(place_running hc).mp h]
      split
      · rfl
      · rfl
  | adding idx t =>
      rw [((place_adding hc).mp h).right]
      by_cases hi : i = idx
      · subst hi
        rw [if_pos rfl]
        exact Parts.part_self i t
      · rw [if_neg hi]
        exact Parts.part_other (Ne.symm hi) t
  | stopping j =>
      have hplace := (place_stopping hc).mp h
      have hnone : forall c : Lfthread.Client τ,
          c = Lfthread.Client.running ∨ c.Stopping -> c.pending = [] := by
        rintro c (rfl | hstopping)
        · rfl
        · cases c with
          | enqueue t => exact hstopping.elim
          | _ => rfl
      symm
      apply hnone
      rcases Nat.lt_trichotomy i j with hlt | heq | hgt
      · rw [hplace.right.left hlt]
        exact Or.inr trivial
      · exact hplace.right.right.right heq
      · exact Or.inl (hplace.right.right.left hgt)

theorem Inv.invoked_prefix (h : Inv s) (i : Nat) :
    s.invokedBy i <+: Parts.part s.offered i := by
  unfold invokedBy
  cases hw : s.workers[i]? with
  | none => exact List.nil_prefix
  | some w =>
      have hinv := h.workers w (List.mem_of_getElem? hw)
      have hprefix := hinv.invoked_prefix.left
      unfold offered
      rw [Parts.part_append, part_offering (h.places i w hw),
        <- h.dealt i w hw]
      exact hprefix

theorem run_inv {hardware : Nat} {n : Int} {size : UInt64}
    (hsize : size.toNat <= 2 ^ 63) {acts : List (Action τ)}
    (hrun : StepFn.run (step moved) (start hardware n size) acts = some s) :
    Inv s := by
  have hpres : forall (s : StaticPool τ) a s', Inv s ->
      step moved s a = some s' -> Inv s' := by
    intro s a s' h hstep
    exact h.next (step_steps hstep)
  exact StepFn.run_invariant hpres (start_inv hardware n hsize) hrun

/--
In every run of a static pool: each worker has invoked the first of the tasks
that the pool has dealt to it, in their order, and taken together the workers
have invoked no task more often than it was added.
-/
theorem invoked_inTurn (moved : Task τ -> Task τ) (hardware : Nat) (n : Int)
    (size : UInt64) (hsize : size.toNat <= 2 ^ 63) (acts : List (Action τ))
    (s : StaticPool τ)
    (hrun : StepFn.run (step moved) (start hardware n size) acts = some s) :
    (forall i, s.invokedBy i <+: Parts.part s.offered i) ∧
      s.invoked.Subperm (s.offered.map Prod.snd) := by
  have hinv : Inv s := run_inv hsize hrun
  refine ⟨hinv.invoked_prefix, ?_⟩
  have hsub : s.invoked.Sublist
      (Parts.joined s.workers.length (Parts.part s.offered)) :=
    Parts.joined_sublist fun i _ => hinv.invoked_prefix i
  exact hsub.subperm.trans (Parts.joined_perm hinv.bound).subperm

def twoInTurn : List (Action Nat) :=
  Action.addTask 7 :: List.replicate 5 Action.client ++
    List.replicate 7 (Action.worker 1) ++
    Action.addTaskMove 8 :: List.replicate 3 Action.client

theorem invoked_inTurn_twoInTurn :
    exists s, StepFn.run (step id) (start 1 2 2) twoInTurn = some s ∧
      s.invoked = [7] ∧ s.offered = [(1, 7), (0, 8)] ∧
      s.invoked.Subperm (s.offered.map Prod.snd) :=
  ⟨_, rfl, rfl, rfl,
    (invoked_inTurn id 1 2 2 (by decide) twoInTurn _ rfl).right⟩

/-!
# After `t_shutdown`
-/

def Shut (s : StaticPool τ) : Prop :=
  s.client = Client.running ∧ s.shutdown = true

theorem Inv.leaving (h : Inv s) (hshut : s.Shut) {w : Lfthread τ}
    (hw : w ∈ s.workers) : Lfthread.Leaving w.worker := by
  rcases List.getElem?_of_mem hw with ⟨i, hi⟩
  have hplace := (place_running hshut.left).mp (h.places i w hi)
  rw [hshut.right, if_pos rfl] at hplace
  have hclient := (h.workers w hw).client
  unfold Lfthread.ClientInv at hclient
  rw [hplace] at hclient
  rw [hclient.right.left]
  trivial

theorem Inv.offered_eq (h : s.Shut) : s.offered = s.dealt := by
  unfold offered
  rw [h.left]
  exact List.append_nil _

theorem Inv.invoked_perm_iff (h : Inv s) (hshut : s.Shut) :
    s.invoked.Perm (s.dealt.map Prod.snd) <->
      forall w, w ∈ s.workers -> w.AllInvoked := by
  have hbound : forall p, p ∈ s.dealt -> p.fst < s.workers.length := by
    rw [<- Inv.offered_eq hshut]
    exact h.bound
  have hparts := Parts.joined_perm hbound
  have hprefix : forall i, i < s.workers.length ->
      s.invokedBy i <+: Parts.part s.dealt i := by
    intro i _
    rw [<- Inv.offered_eq hshut]
    exact h.invoked_prefix i
  constructor
  · intro hperm w hw
    rcases List.getElem?_of_mem hw with ⟨i, hi⟩
    have hlt := (List.getElem?_eq_some_iff.mp hi).1
    have hall := Parts.eq_of_length hprefix
      (hperm.length_eq.trans hparts.length_eq.symm) i hlt
    unfold invokedBy at hall
    rw [hi, <- h.dealt i w hi] at hall
    have hinv := h.workers w hw
    exact ⟨hall, hinv.invoked_prefix.right⟩
  · intro hall
    have hsame : s.invoked = Parts.joined s.workers.length
        (Parts.part s.dealt) := by
      apply Parts.joined_congr
      intro i hi
      have hw := List.getElem?_eq_getElem hi
      unfold invokedBy
      rw [hw, <- h.dealt i _ hw]
      exact (hall _ (List.getElem_mem hi)).left
    rw [hsame]
    exact hparts

/--
In every run of a static pool in which `t_shutdown` has returned: each accepted
task has been invoked once exactly if no worker left its polling loop while a
task of the client was in its ring buffer.
-/
theorem shutdown_invokes_iff (moved : Task τ -> Task τ) (hardware : Nat)
    (n : Int) (size : UInt64) (hsize : size.toNat <= 2 ^ 63)
    (acts : List (Action τ)) (s : StaticPool τ)
    (hrun : StepFn.run (step moved) (start hardware n size) acts = some s)
    (hshut : s.Shut) :
    s.invoked.Perm (s.dealt.map Prod.snd) <->
      StepFn.Meets (step moved)
        (MemberMeets workers label Lfthread.LeavesEmpty)
        (start hardware n size) acts := by
  have hinv : Inv s := run_inv hsize hrun
  have hstart : forall w, w ∈ (start hardware n size : StaticPool τ).workers ->
      Lfthread.Inv w ∧ Lfthread.Kept w := by
    intro w hw
    rw [List.eq_of_mem_replicate hw]
    exact ⟨Lfthread.start_inv hsize, fun hno => hno.elim⟩
  have hnone := (family moved).none_bad_iff_meets
    (fun _ _ _ h hstep => h.step_inv hstep)
    (fun _ _ _ h hkept hguard hstep => hkept.step h hguard hstep)
    (fun _ _ _ h hguard hstep =>
      Lfthread.dropped_of_not_leavesEmpty h hguard hstep)
    (fun _ _ _ h hdropped hstep => hdropped.step h hstep)
    (fun w hkept hdropped => hdropped.right (hkept hdropped.left))
    hstart hrun
  rw [hinv.invoked_perm_iff hshut, <- hnone]
  constructor
  · intro hall w hw hdropped
    have hleaving := hinv.leaving hshut hw
    have hfront := ((hinv.workers w hw).allInvoked_iff hleaving).mp (hall w hw)
    exact hdropped.right hfront
  · intro hkept w hw
    have hleaving := hinv.leaving hshut hw
    refine ((hinv.workers w hw).allInvoked_iff hleaving).mpr ?_
    by_contra hno
    exact hkept w hw ⟨hleaving, hno⟩

def polledFirst : List (Action Nat) :=
  Action.addTask 7 :: List.replicate 5 Action.client ++
    List.replicate 7 (Action.worker 0) ++
    Action.tShutdown :: List.replicate 9 Action.client ++
    List.replicate 10 (Action.worker 0) ++ List.replicate 3 Action.client

theorem shutdown_invokes_iff_polledFirst :
    exists s, StepFn.run (step id) (start 1 1 2) polledFirst = some s ∧
      s.Shut ∧ s.invoked = [7] ∧
      StepFn.Meets (step id) (MemberMeets workers label Lfthread.LeavesEmpty)
        (start 1 1 2) polledFirst :=
  ⟨_, rfl, ⟨rfl, rfl⟩, rfl,
    (shutdown_invokes_iff id 1 1 2 (by decide) polledFirst _ rfl
      ⟨rfl, rfl⟩).mp (List.Perm.refl [7])⟩

end StaticPool

end MoonNet
