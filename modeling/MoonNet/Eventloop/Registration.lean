import Mathlib.Data.List.Perm.Basic
import MoonNet.Eventloop.Model

/-!
# When the three views of the registered events agree

Every registration sits at the descriptor of its own event.  With this, each
call on a loop whose views agree leaves them in agreement exactly if it meets
the condition `Keeps`: a call that fails in the kernel, or that takes a
descriptor over from another event, changes one of the views alone.
-/

namespace MoonNet

open Foundation

universe u

namespace Eventloop

variable {E : Type u} {fd : E -> Int}

def Keyed (fd : E -> Int) (s : Eventloop E) : Prop :=
  forall n r, s.epoll n = some r -> n = fd r.event

theorem new_keyed (n : Int) : Keyed fd (new n : Eventloop E) := by
  intro m r h
  cases h

theorem new_consistent (n : Int) : Consistent (new n : Eventloop E) where
  load_eq := rfl
  nodup := List.nodup_nil
  mem_iff := by
    intro event
    constructor
    · intro h
      cases h
    · intro h
      rcases h with ⟨m, r, hr, _⟩
      cases hr

theorem Keyed.update {s s' : Eventloop E} (h : Keyed fd s) {n : Int}
    {o : Option (Registration E)} (ho : forall r, o = some r -> n = fd r.event)
    (hs' : s'.epoll = Function.update s.epoll n o) : Keyed fd s' := by
  intro m r hr
  rw [hs'] at hr
  by_cases hm : m = n
  · subst hm
    rw [Function.update_self] at hr
    exact ho r hr
  · rw [Function.update_of_ne hm] at hr
    exact h m r hr

theorem registered_iff {s : Eventloop E} (h : Keyed fd s) {event : E} :
    s.Registered event <->
      exists r, s.epoll (fd event) = some r ∧ r.event = event := by
  constructor
  · intro hreg
    rcases hreg with ⟨n, r, hr, hevent⟩
    have hn : n = fd event := by
      rw [<- hevent]
      exact h n r hr
    exact ⟨r, hn ▸ hr, hevent⟩
  · intro hreg
    rcases hreg with ⟨r, hr, hevent⟩
    exact ⟨fd event, r, hr, hevent⟩

theorem registered_update {s s' : Eventloop E} (h : Keyed fd s)
    (h' : Keyed fd s') {n : Int} {o : Option (Registration E)}
    (hs' : s'.epoll = Function.update s.epoll n o) (event : E) :
    s'.Registered event <->
      if fd event = n then exists r, o = some r ∧ r.event = event
      else s.Registered event := by
  rw [registered_iff h', hs']
  split
  · rename_i hn
    rw [hn, Function.update_self]
  · rename_i hn
    rw [Function.update_of_ne hn, registered_iff h]

/-!
# What a call does
-/

theorem addEvent_failed {s : Eventloop E} {event : E} {events : Mask}
    {refused : Bool} (h : ¬ (s.epoll (fd event) = none ∧ refused = false)) :
    s.epoll.add (fd event) { event := event, events := events } refused =
      none := by
  unfold Epoll.add
  rw [if_pos]
  cases hr : s.epoll (fd event) with
  | some r => rfl
  | none =>
      cases refused with
      | true => rfl
      | false => exact absurd ⟨hr, rfl⟩ h

theorem addEvent_succeeded {s : Eventloop E} {event : E} {events : Mask}
    (h : s.epoll (fd event) = none) :
    s.epoll.add (fd event) { event := event, events := events } false =
      some (Function.update s.epoll (fd event)
        (some { event := event, events := events })) := by
  simp [Epoll.add, h]

theorem del_cases (k : Epoll E) (n : Int) (refused : Bool) :
    k.del n refused = none ∨
      (refused = false ∧ k n ≠ none ∧
        k.del n refused = some (Function.update k n none)) := by
  unfold Epoll.del
  cases refused with
  | true => simp
  | false =>
      cases hr : k n with
      | none => simp
      | some r => simp

theorem mod_cases (k : Epoll E) (n : Int) (r : Registration E)
    (refused : Bool) :
    (k.mod n r refused = none ∧ (refused = true ∨ k n = none)) ∨
      (refused = false ∧ k n ≠ none ∧
        k.mod n r refused = some (Function.update k n (some r))) := by
  unfold Epoll.mod
  cases refused with
  | true => simp
  | false =>
      cases hr : k n with
      | none => simp
      | some r => simp

variable [DecidableEq E]

theorem Keyed.apply {s : Eventloop E} (h : Keyed fd s) (a : Action E) :
    Keyed fd (s.apply fd a) := by
  cases a with
  | addEvent event events refused =>
      show Keyed fd (s.addEvent fd event events refused)
      unfold addEvent Epoll.add
      split
      · exact h
      · exact h.update (fun r hr => by cases hr; rfl) rfl
  | delEvent event refused =>
      show Keyed fd (s.delEvent fd event refused)
      unfold delEvent Epoll.del
      split
      · exact h
      · exact h.update (fun r hr => by cases hr) rfl
  | modEvent event events refused =>
      show Keyed fd (s.modEvent fd event events refused)
      unfold modEvent Epoll.mod
      split
      · exact h
      · exact h.update (fun r hr => by cases hr; rfl) rfl
  | getallev list =>
      exact h

namespace Consistent

variable {s : Eventloop E}

omit [DecidableEq E] in
theorem addEvent_of_failed (h : Consistent s) {event : E} {events : Mask}
    {refused : Bool} (hnone : s.epoll.add (fd event)
      { event := event, events := events } refused = none) :
    ¬ Consistent (s.addEvent fd event events refused) := by
  intro h'
  have hs' : s.addEvent fd event events refused =
      { s with load := s.load + 1, evlist := s.evlist ++ [event] } := by
    unfold addEvent
    rw [hnone]
    rfl
  rw [hs'] at h'
  have hreg : s.Registered event := (h'.mem_iff event).mp (by simp)
  have hmem : event ∈ s.evlist := (h.mem_iff event).mpr hreg
  exact (List.disjoint_of_nodup_append h'.nodup) hmem (by simp)

theorem addEvent_iff (h : Consistent s) (hkeyed : Keyed fd s) {event : E}
    {events : Mask} {refused : Bool} :
    Consistent (s.addEvent fd event events refused) <->
      s.epoll (fd event) = none ∧ refused = false := by
  constructor
  · intro h'
    by_contra hfails
    exact h.addEvent_of_failed (addEvent_failed hfails) h'
  · intro hsucceeds
    rcases hsucceeds with ⟨hfree, hrefused⟩
    subst hrefused
    have hkeyed' : Keyed fd (s.addEvent fd event events false) :=
      hkeyed.apply (Action.addEvent event events false)
    have hepoll : (s.addEvent fd event events false).epoll =
        Function.update s.epoll (fd event)
          (some { event := event, events := events }) := by
      unfold addEvent
      rw [addEvent_succeeded hfree]
      rfl
    have hevlist : (s.addEvent fd event events false).evlist =
        s.evlist ++ [event] := by
      unfold addEvent
      rw [addEvent_succeeded hfree]
      rfl
    have hload : (s.addEvent fd event events false).load = s.load + 1 := by
      unfold addEvent
      rw [addEvent_succeeded hfree]
      rfl
    have hother : forall e, e ∈ s.evlist -> fd e ≠ fd event := by
      intro e hmem heq
      rcases (registered_iff hkeyed).mp ((h.mem_iff e).mp hmem) with
        ⟨r, hr, _⟩
      rw [heq, hfree] at hr
      cases hr
    exact {
      load_eq := by
        rw [hload, hevlist, h.load_eq, List.length_append]
        rfl
      nodup := by
        rw [hevlist, List.nodup_append_comm]
        exact List.nodup_cons.mpr
          ⟨fun hmem => hother event hmem rfl, h.nodup⟩
      mem_iff := by
        intro e
        rw [hevlist, registered_update hkeyed hkeyed' hepoll, List.mem_append,
          List.mem_singleton]
        split
        · rename_i hfd
          constructor
          · intro hmem
            cases hmem with
            | inl hold => exact absurd hfd (hother e hold)
            | inr hnew => exact ⟨_, rfl, hnew.symm⟩
          · intro hreg
            rcases hreg with ⟨r, hr, hevent⟩
            cases hr
            exact Or.inr hevent.symm
        · rename_i hfd
          rw [<- h.mem_iff e]
          constructor
          · intro hmem
            cases hmem with
            | inl hold => exact hold
            | inr hnew =>
                rw [hnew] at hfd
                exact absurd rfl hfd
          · exact Or.inl }

theorem delEvent_iff (h : Consistent s) (hkeyed : Keyed fd s) {event : E}
    {refused : Bool} :
    Consistent (s.delEvent fd event refused) <->
      s.Registered event ∧ refused = false := by
  have hkeyed' : Keyed fd (s.delEvent fd event refused) :=
    hkeyed.apply (Action.delEvent event refused)
  have hload : (s.delEvent fd event refused).load = s.load - 1 := by
    unfold delEvent ctl
    split <;> rfl
  have hevlist : (s.delEvent fd event refused).evlist =
      s.evlist.filter fun e => e != event := by
    unfold delEvent ctl
    split <;> rfl
  constructor
  · intro h'
    -- The counter is one less, so the event was in the list.
    have hmem : event ∈ s.evlist := by
      by_contra hnot
      have hall : s.evlist.filter (fun e => e != event) = s.evlist := by
        apply List.filter_eq_self.mpr
        intro e he
        exact bne_iff_ne.mpr fun heq => hnot (heq ▸ he)
      have hcount := h'.load_eq
      rw [hload, hevlist, hall, h.load_eq] at hcount
      omega
    refine ⟨(h.mem_iff event).mp hmem, ?_⟩
    rcases del_cases s.epoll (fd event) refused with hnone | hsome
    · have hreg : (s.delEvent fd event refused).Registered event := by
        unfold delEvent
        rw [hnone]
        exact (h.mem_iff event).mp hmem
      have hkept := (h'.mem_iff event).mpr hreg
      rw [hevlist] at hkept
      simp at hkept
    · exact hsome.left
  · intro hsucceeds
    rcases hsucceeds with ⟨hreg, hrefused⟩
    subst hrefused
    rcases (registered_iff hkeyed).mp hreg with ⟨r, hr, hevent⟩
    have hepoll : (s.delEvent fd event false).epoll =
        Function.update s.epoll (fd event) none := by
      simp [delEvent, Epoll.del, hr, ctl, updateload]
    have hmem : event ∈ s.evlist := (h.mem_iff event).mpr hreg
    exact {
      load_eq := by
        rw [hload, hevlist, h.load_eq, <- h.nodup.erase_eq_filter,
          List.length_erase_of_mem hmem]
        have hpos := List.length_pos_of_mem hmem
        omega
      nodup := by
        rw [hevlist]
        exact h.nodup.filter _
      mem_iff := by
        intro e
        rw [hevlist, registered_update hkeyed hkeyed' hepoll, List.mem_filter,
          bne_iff_ne, h.mem_iff e]
        split
        · rename_i hfd
          constructor
          · intro hkept
            rcases (registered_iff hkeyed).mp hkept.left with ⟨r', hr', he⟩
            rw [hfd, hr] at hr'
            cases hr'
            exact absurd (he.symm.trans hevent) hkept.right
          · intro hnew
            rcases hnew with ⟨r', hr', _⟩
            cases hr'
        · rename_i hfd
          constructor
          · exact fun hkept => hkept.left
          · intro hold
            exact ⟨hold, fun heq => hfd (by rw [heq])⟩ }

theorem modEvent_iff (h : Consistent s) (hkeyed : Keyed fd s) {event : E}
    {events : Mask} {refused : Bool} :
    Consistent (s.modEvent fd event events refused) <->
      (refused = false ->
        forall r, s.epoll (fd event) = some r -> r.event = event) := by
  have hkeyed' : Keyed fd (s.modEvent fd event events refused) :=
    hkeyed.apply (Action.modEvent event events refused)
  have hload : (s.modEvent fd event events refused).load = s.load := by
    unfold modEvent ctl
    split <;> rfl
  have hevlist : (s.modEvent fd event events refused).evlist = s.evlist := by
    unfold modEvent ctl
    split <;> rfl
  rcases mod_cases s.epoll (fd event) { event := event, events := events }
    refused with ⟨hnone, hwhy⟩ | ⟨hrefused, hsome, hepoll⟩
  · have hsame : s.modEvent fd event events refused = s := by
      unfold modEvent
      rw [hnone]
      rfl
    rw [hsame]
    constructor
    · intro _ hrefused r hr
      cases hwhy with
      | inl htrue => simp [htrue] at hrefused
      | inr hfree => simp [hfree] at hr
    · exact fun _ => h
  · have hepoll' : (s.modEvent fd event events refused).epoll =
        Function.update s.epoll (fd event)
          (some { event := event, events := events }) := by
      unfold modEvent
      rw [hepoll]
      rfl
    constructor
    · intro h' _ r hr
      have hnew : (s.modEvent fd event events refused).Registered event := by
        apply (registered_update hkeyed hkeyed' hepoll' event).mpr
        rw [if_pos rfl]
        exact ⟨_, rfl, rfl⟩
      have hmem := (h'.mem_iff event).mpr hnew
      rw [hevlist] at hmem
      rcases (registered_iff hkeyed).mp ((h.mem_iff event).mp hmem) with
        ⟨r', hr', hevent⟩
      rw [hr] at hr'
      cases hr'
      exact hevent
    · intro hown
      exact {
        load_eq := by rw [hload, hevlist, h.load_eq]
        nodup := by
          rw [hevlist]
          exact h.nodup
        mem_iff := by
          intro e
          rw [hevlist, registered_update hkeyed hkeyed' hepoll', h.mem_iff e]
          split
          · rename_i hfd
            cases hr : s.epoll (fd event) with
            | none => exact absurd hr hsome
            | some r =>
                have hevent := hown hrefused r hr
                rw [registered_iff hkeyed, hfd, hr]
                constructor
                · intro hold
                  rcases hold with ⟨r', hr', he⟩
                  cases hr'
                  exact ⟨_, rfl, hevent.symm.trans he⟩
                · intro hnew
                  rcases hnew with ⟨r', hr', he⟩
                  cases hr'
                  exact ⟨r, rfl, hevent.trans he⟩
          · rfl }

omit [DecidableEq E] in
theorem getallev_iff (h : Consistent s) {list : List E} :
    Consistent (s.getallev list).fst <-> list.Perm s.evlist := by
  constructor
  · intro h'
    apply (List.perm_ext_iff_of_nodup h'.nodup h.nodup).mpr
    intro e
    rw [h.mem_iff e]
    exact h'.mem_iff e
  · intro hperm
    exact {
      load_eq := by
        show s.load = list.length
        rw [hperm.length_eq]
        exact h.load_eq
      nodup := hperm.nodup_iff.mpr h.nodup
      mem_iff := by
        intro e
        show e ∈ list <-> s.Registered e
        rw [hperm.mem_iff]
        exact h.mem_iff e }

/-- One call on a loop whose views agree. -/
theorem step_iff {s' : Eventloop E} (h : Consistent s) (hkeyed : Keyed fd s)
    {a : Action E} (hstep : step fd s a = some s') :
    Consistent s' <-> Keeps fd s a := by
  cases hstep
  cases a with
  | addEvent event events refused => exact h.addEvent_iff hkeyed
  | delEvent event refused => exact h.delEvent_iff hkeyed
  | modEvent event events refused => exact h.modEvent_iff hkeyed
  | getallev list => exact h.getallev_iff

end Consistent

/-!
# Runs
-/

theorem run_total (fd : E -> Int) (s : Eventloop E) (acts : List (Action E)) :
    exists s', StepFn.run (step fd) s acts = some s' := by
  induction acts generalizing s with
  | nil => exact ⟨s, rfl⟩
  | cons a rest ih => exact ih (s.apply fd a)

omit [DecidableEq E] in
theorem failedAddUnchanged_of_keeps (s : Eventloop E)
    (a : Action E) (h : Keeps fd s a) : FailedAddUnchanged fd s a := by
  cases a with
  | addEvent event events refused =>
      rcases h with ⟨hfree, hrefused⟩
      subst hrefused
      intro hfailed
      rw [addEvent_succeeded hfree] at hfailed
      cases hfailed
  | _ => trivial

/--
For every sequence of calls on a new loop: after each of them the counter, the
list and the kernel agree and a failed registration has had no effect, exactly
if every call meets the condition `Keeps`.
-/
theorem consistent_iff_keeps (eventfd : Int) (acts : List (Action E)) :
    (StepFn.Throughout (step fd) Consistent (new eventfd) acts ∧
        StepFn.Meets (step fd) (FailedAddUnchanged fd) (new eventfd) acts) <->
      StepFn.Meets (step fd) (Keeps fd) (new eventfd) acts := by
  rcases run_total fd (new eventfd) acts with ⟨s, hrun⟩
  have hpres : forall (s : Eventloop E) a s', Keyed fd s ->
      step fd s a = some s' -> Keyed fd s' := by
    intro s a s' h hstep
    cases hstep
    exact h.apply a
  have hone : forall (s : Eventloop E) a s', Consistent s -> Keyed fd s ->
      step fd s a = some s' -> (Consistent s' <-> Keeps fd s a) := by
    intro s a s' h hkeyed hstep
    exact h.step_iff hkeyed hstep
  have hiff := StepFn.throughout_iff_meets hone (new_consistent eventfd)
    (StepFn.meets_of_invariant hpres (new_keyed eventfd) acts) hrun
  constructor
  · intro h
    exact hiff.mp h.left
  · intro h
    exact ⟨hiff.mpr h, h.imp failedAddUnchanged_of_keeps⟩

/-- An event added twice: the second registration fails with `EEXIST`. -/
theorem added_twice_not_consistent :
    ¬ (StepFn.Throughout (step (id : Int -> Int)) Consistent (new 3)
          [Action.addEvent 5 EPOLLIN false, Action.addEvent 5 EPOLLIN false] ∧
        StepFn.Meets (step id) (FailedAddUnchanged id) (new 3)
          [Action.addEvent 5 EPOLLIN false,
            Action.addEvent 5 EPOLLIN false]) := by
  intro h
  have hunchanged := h.right.right.left rfl
  have hload : (2 : Int) = 1 := hunchanged.left
  cases hload

end Eventloop

end MoonNet
