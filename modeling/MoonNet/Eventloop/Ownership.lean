import Mathlib.Data.List.Nodup
import Mathlib.Data.List.Perm.Basic
import MoonNet.Eventloop.InnerEvents

/-!
# Single ownership of inner events

Whatever is called, an inner event that was constructed is deleted, or owned by
an object that is left, or the wake-up event of a loop that is left.  Which
steps keep every inner event with a single owner can be told from the state
before the step: only `bfevent` takes its inner event out of `evlist_` when it
is destroyed, so the other objects must not listen at that moment.
-/

namespace MoonNet

open Foundation

universe u v

namespace InnerEvents

variable {O : Type v} {E : Type u} {s s' : InnerEvents O E}

theorem evlist_some {l : Eventloop E} (h : s.loop = some l) :
    s.evlist = l.evlist := by
  unfold evlist
  rw [h]

theorem evlist_none (h : s.loop = none) : s.evlist = [] := by
  unfold evlist
  rw [h]

/-!
# Invariant
-/

structure Inv (s : InnerEvents O E) : Prop where
  constructed_nodup : s.constructed.Nodup
  wakeup_mem : s.wakeup ∈ s.constructed
  inner_mem : forall o w ev, s.object o = some w -> w.inner = some ev ->
    ev ∈ s.constructed ∧ ev ≠ s.wakeup
  inner_inj : forall o o' w w' ev, s.object o = some w ->
    s.object o' = some w' -> w.inner = some ev -> w'.inner = some ev -> o = o'
  owned : s.loop ≠ none -> forall o w ev, s.object o = some w ->
    w.inner = some ev -> ev ∉ s.deleted
  wakeup_listed : s.loop ≠ none ->
    s.wakeup ∈ s.evlist ∧ s.wakeup ∉ s.deleted
  closed : forall o ev, s.object o = some (Wrapper.bfevent ev true) ->
    ev ∉ s.evlist
  deleted_mem : forall ev, ev ∈ s.deleted -> ev ∈ s.constructed
  listed_mem : forall ev, ev ∈ s.evlist -> ev ∈ s.constructed
  accounted : forall ev, ev ∈ s.constructed ->
    ev ∈ s.deleted ∨
      (exists o w, s.object o = some w ∧ w.inner = some ev) ∨
        (ev = s.wakeup ∧ s.loop ≠ none)
  queued : forall o, o ∈ s.delque ->
    exists ev started, s.object o = some (Wrapper.udpevent ev started)
  delque_nodup : s.delque.Nodup

theorem singleOwner_iff (h : Inv s) :
    SingleOwner s <->
      (forall ev, ev ∈ s.evlist -> ev ∉ s.deleted) ∧ s.deleted.Nodup := by
  constructor
  · intro hsingle
    exact ⟨hsingle.listed, hsingle.once⟩
  · intro hsplit
    refine ⟨hsplit.left, hsplit.right, ?_⟩
    intro hfinished
    apply (List.perm_ext_iff_of_nodup hsplit.right h.constructed_nodup).mpr
    intro ev
    constructor
    · exact h.deleted_mem ev
    · intro hev
      rcases h.accounted ev hev with hdeleted | ⟨o, w, hw, _⟩ | ⟨_, hloop⟩
      · exact hdeleted
      · rw [hfinished.right o] at hw
        cases hw
      · exact absurd hfinished.left hloop

/-!
# Member functions

A call on an object changes the place of its own inner event alone.
-/

structure Touches (l : Eventloop E) (w : Wrapper E) (l' : Eventloop E)
    (w' : Wrapper E) : Prop where
  inner_eq : w'.inner = w.inner
  mem_of : forall ev, ev ∈ l'.evlist -> ev ∈ l.evlist ∨ w.inner = some ev
  mem_keep : forall ev, ev ∈ l.evlist -> w.inner ≠ some ev -> ev ∈ l'.evlist
  closed : forall ev, w' = Wrapper.bfevent ev true ->
    (w = Wrapper.bfevent ev true -> ev ∉ l.evlist) -> ev ∉ l'.evlist
  udpevent : forall ev started, w = Wrapper.udpevent ev started ->
    exists started', w' = Wrapper.udpevent ev started'

theorem touches_self (l : Eventloop E) (w : Wrapper E) : Touches l w l w where
  inner_eq := rfl
  mem_of := fun _ hev => Or.inl hev
  mem_keep := fun _ hev _ => hev
  closed := fun _ hw hold => hold hw
  udpevent := fun _ started hw => ⟨started, hw⟩

section Members

variable [DecidableEq E] {fd : E -> Int} {mask : E -> Mask}
variable {refused : E -> Bool}

omit [DecidableEq E] in
theorem mem_addEvent {l : Eventloop E} {ev e : E} :
    e ∈ (addEvent fd mask refused l ev).evlist <-> e ∈ l.evlist ∨ e = ev := by
  rw [addEvent, Eventloop.addEvent_evlist, List.mem_append,
    List.mem_singleton]

theorem mem_delEvent {l : Eventloop E} {ev e : E} :
    e ∈ (delEvent fd refused l ev).evlist <-> e ∈ l.evlist ∧ e ≠ ev := by
  rw [delEvent, Eventloop.delEvent_evlist, List.mem_filter, bne_iff_ne]

omit [DecidableEq E] in
theorem touches_addEvent {l : Eventloop E} {w w' : Wrapper E} {ev : E}
    (hw : w.inner = some ev) (hw' : w'.inner = some ev)
    (hopen : forall e, w' ≠ Wrapper.bfevent e true)
    (hudp : forall e started, w = Wrapper.udpevent e started ->
      exists started', w' = Wrapper.udpevent e started') :
    Touches l w (addEvent fd mask refused l ev) w' where
  inner_eq := hw'.trans hw.symm
  mem_of := by
    intro e he
    rcases mem_addEvent.mp he with hold | hlast
    · exact Or.inl hold
    · rw [hlast]
      exact Or.inr hw
  mem_keep := fun _ he _ => mem_addEvent.mpr (Or.inl he)
  closed := fun e he _ => absurd he (hopen e)
  udpevent := hudp

theorem touches_delEvent {l : Eventloop E} {w w' : Wrapper E} {ev : E}
    (hw : w.inner = some ev) (hw' : w'.inner = some ev)
    (hudp : forall e started, w = Wrapper.udpevent e started ->
      exists started', w' = Wrapper.udpevent e started') :
    Touches l w (delEvent fd refused l ev) w' where
  inner_eq := hw'.trans hw.symm
  mem_of := fun _ he => Or.inl (mem_delEvent.mp he).left
  mem_keep := by
    intro e he hne
    exact mem_delEvent.mpr ⟨he, fun heq => hne (heq ▸ hw)⟩
  closed := by
    intro e he _ hmem
    rw [he] at hw'
    exact (mem_delEvent.mp hmem).right (Option.some.inj hw')
  udpevent := hudp

omit [DecidableEq E] in
theorem enableListen_touches (l : Eventloop E) (w : Wrapper E) :
    Touches l w (w.enableListen fd mask refused l).snd
      (w.enableListen fd mask refused l).fst := by
  cases w with
  | bfevent ev closed =>
      cases closed with
      | false => exact touches_self l _
      | true => exact touches_addEvent rfl rfl nofun nofun
  | udpevent ev started =>
      cases started with
      | true => exact touches_self l _
      | false =>
          cases ev with
          | none =>
              exact { touches_self l (Wrapper.udpevent none false) with
                closed := nofun
                udpevent := by
                  intro e started hw
                  cases hw
                  exact ⟨true, rfl⟩ }
          | some ev =>
              refine touches_addEvent rfl rfl nofun ?_
              intro e started hw
              cases hw
              exact ⟨true, rfl⟩
  | timerevent ev => exact touches_addEvent rfl rfl nofun nofun
  | signalevent ev => exact touches_addEvent rfl rfl nofun nofun

theorem delListen_touches (l : Eventloop E) (w : Wrapper E) :
    Touches l w (w.delListen fd refused l).snd
      (w.delListen fd refused l).fst := by
  cases w with
  | bfevent ev closed => exact touches_delEvent rfl rfl nofun
  | udpevent ev started =>
      cases started with
      | false => exact touches_self l _
      | true =>
          cases ev with
          | none =>
              exact { touches_self l (Wrapper.udpevent none true) with
                closed := nofun
                udpevent := by
                  intro e started hw
                  cases hw
                  exact ⟨false, rfl⟩ }
          | some ev =>
              refine touches_delEvent rfl rfl ?_
              intro e started hw
              cases hw
              exact ⟨false, rfl⟩
  | timerevent ev => exact touches_delEvent rfl rfl nofun
  | signalevent ev => exact touches_delEvent rfl rfl nofun

theorem close_touches (l : Eventloop E) (w : Wrapper E) :
    Touches l w (w.close fd refused l).snd (w.close fd refused l).fst := by
  cases w with
  | bfevent ev closed =>
      cases closed with
      | true => exact touches_self l _
      | false => exact delListen_touches l _
  | _ => exact delListen_touches l _

omit [DecidableEq E] in
theorem start_inv (wakeup : E) :
    Inv (start fd mask refused wakeup : InnerEvents O E) where
  constructed_nodup := List.nodup_singleton wakeup
  wakeup_mem := List.mem_singleton_self wakeup
  inner_mem := nofun
  inner_inj := nofun
  owned := fun _ => nofun
  wakeup_listed := fun _ => ⟨mem_addEvent.mpr (Or.inr rfl), nofun⟩
  closed := nofun
  deleted_mem := nofun
  listed_mem := by
    intro ev hev
    rcases mem_addEvent.mp hev with hnone | hwakeup
    · cases hnone
    · exact List.mem_singleton.mpr hwakeup
  accounted := fun _ hev =>
    Or.inr (Or.inr ⟨List.mem_singleton.mp hev, nofun⟩)
  queued := nofun
  delque_nodup := List.nodup_nil

end Members

section Steps

variable [DecidableEq O]

theorem call_cases {o : O}
    {f : Eventloop E -> Wrapper E -> Wrapper E × Eventloop E}
    (hstep : s.call o f = some s') :
    exists l w, s.loop = some l ∧ s.object o = some w ∧
      s' = { s with
        loop := some (f l w).snd
        object := Function.update s.object o (some (f l w).fst) } := by
  unfold call at hstep
  cases hl : s.loop with
  | none =>
      rw [hl] at hstep
      cases hstep
  | some l =>
      cases hw : s.object o with
      | none =>
          rw [hl, hw] at hstep
          cases hstep
      | some w =>
          rw [hl, hw] at hstep
          cases hstep
          exact ⟨l, w, rfl, rfl, rfl⟩

theorem update_cases {object : O -> Option (Wrapper E)} {o x : O}
    {w' wx : Wrapper E} (h : Function.update object o (some w') x = some wx) :
    (x = o ∧ wx = w') ∨ (x ≠ o ∧ object x = some wx) := by
  by_cases hx : x = o
  · rw [hx, Function.update_self] at h
    exact Or.inl ⟨hx, (Option.some.inj h).symm⟩
  · rw [Function.update_of_ne hx] at h
    exact Or.inr ⟨hx, h⟩

theorem Inv.call (h : Inv s) {o : O}
    {f : Eventloop E -> Wrapper E -> Wrapper E × Eventloop E}
    (hf : forall l w, Touches l w (f l w).snd (f l w).fst)
    (hstep : s.call o f = some s') : Inv s' := by
  rcases call_cases hstep with ⟨l, w, hl, hw, hs'⟩
  subst hs'
  have htouches := hf l w
  have hlist : s.evlist = l.evlist := evlist_some hl
  have hloop : s.loop ≠ none := by
    rw [hl]
    nofun
  have hbefore : forall x wx,
      Function.update s.object o (some (f l w).fst) x = some wx ->
        exists w0, s.object x = some w0 ∧ wx.inner = w0.inner := by
    intro x wx hx
    rcases update_cases hx with ⟨hxo, hwx⟩ | ⟨_, hold⟩
    · refine ⟨w, ?_, ?_⟩
      · rw [hxo]
        exact hw
      · rw [hwx]
        exact htouches.inner_eq
    · exact ⟨wx, hold, rfl⟩
  constructor
  case constructed_nodup =>
    exact h.constructed_nodup
  case wakeup_mem =>
    exact h.wakeup_mem
  case inner_mem =>
    intro x wx ev hx hev
    rcases hbefore x wx hx with ⟨w0, hw0, hinner⟩
    exact h.inner_mem x w0 ev hw0 (hinner ▸ hev)
  case inner_inj =>
    intro x y wx wy ev hx hy hevx hevy
    rcases hbefore x wx hx with ⟨w0, hw0, hinner0⟩
    rcases hbefore y wy hy with ⟨w1, hw1, hinner1⟩
    exact h.inner_inj x y w0 w1 ev hw0 hw1 (hinner0 ▸ hevx) (hinner1 ▸ hevy)
  case owned =>
    intro _ x wx ev hx hev
    rcases hbefore x wx hx with ⟨w0, hw0, hinner⟩
    exact h.owned hloop x w0 ev hw0 (hinner ▸ hev)
  case wakeup_listed =>
    intro _
    rcases h.wakeup_listed hloop with ⟨hlisted, hdeleted⟩
    refine ⟨htouches.mem_keep s.wakeup (hlist ▸ hlisted) ?_, hdeleted⟩
    intro heq
    exact (h.inner_mem o w s.wakeup hw heq).right rfl
  case closed =>
    intro x ev hx hmem
    rcases update_cases hx with ⟨_, hclosed⟩ | ⟨hxo, hold⟩
    · refine htouches.closed ev hclosed.symm ?_ hmem
      intro hopen
      rw [<- hlist]
      exact h.closed o ev (hopen ▸ hw)
    · rcases htouches.mem_of ev hmem with hin | hinner
      · rw [<- hlist] at hin
        exact h.closed x ev hold hin
      · exact hxo (h.inner_inj x o _ w ev hold hw rfl hinner)
  case deleted_mem =>
    exact h.deleted_mem
  case listed_mem =>
    intro ev hmem
    rcases htouches.mem_of ev hmem with hin | hinner
    · rw [<- hlist] at hin
      exact h.listed_mem ev hin
    · exact (h.inner_mem o w ev hw hinner).left
  case accounted =>
    intro ev hev
    rcases h.accounted ev hev with hdeleted | ⟨x, wx, hx, hinner⟩ | hwakeup
    · exact Or.inl hdeleted
    · refine Or.inr (Or.inl ?_)
      by_cases hxo : x = o
      · rw [hxo, hw] at hx
        cases hx
        exact ⟨o, (f l w).fst, Function.update_self _ _ _,
          htouches.inner_eq.trans hinner⟩
      · refine ⟨x, wx, ?_, hinner⟩
        show Function.update s.object o _ x = some wx
        rw [Function.update_of_ne hxo]
        exact hx
    · exact Or.inr (Or.inr ⟨hwakeup.left, nofun⟩)
  case queued =>
    intro x hx
    rcases h.queued x hx with ⟨ev, started, hudp⟩
    by_cases hxo : x = o
    · rw [hxo, hw] at hudp
      rcases htouches.udpevent ev started (Option.some.inj hudp) with
        ⟨started', hw'⟩
      refine ⟨ev, started', ?_⟩
      show Function.update s.object o _ x = _
      rw [hxo, Function.update_self, hw']
    · refine ⟨ev, started, ?_⟩
      show Function.update s.object o _ x = _
      rw [Function.update_of_ne hxo]
      exact hudp
  case delque_nodup =>
    exact h.delque_nodup

theorem call_singleOwner (h : Inv s) (hsingle : SingleOwner s) {o : O}
    {f : Eventloop E -> Wrapper E -> Wrapper E × Eventloop E}
    (hf : forall l w, Touches l w (f l w).snd (f l w).fst)
    (hstep : s.call o f = some s') : SingleOwner s' := by
  apply (singleOwner_iff (h.call hf hstep)).mpr
  rcases call_cases hstep with ⟨l, w, hl, hw, hs'⟩
  subst hs'
  refine ⟨?_, hsingle.once⟩
  intro ev hev
  rcases (hf l w).mem_of ev hev with hin | hinner
  · rw [<- evlist_some hl] at hin
    exact hsingle.listed ev hin
  · have hloop : s.loop ≠ none := by
      rw [hl]
      nofun
    exact h.owned hloop o w ev hw hinner

/-!
# Construction and queueing
-/

structure Constructs (l : Eventloop E) (ev : E) (l' : Eventloop E)
    (w : Wrapper E) : Prop where
  inner : forall e, w.inner = some e -> e = ev
  mem_of : forall e, e ∈ l'.evlist ->
    e ∈ l.evlist ∨ (e = ev ∧ w.inner = some ev)
  mem_keep : forall e, e ∈ l.evlist -> e ∈ l'.evlist
  not_closed : forall e, w ≠ Wrapper.bfevent e true

omit [DecidableEq O] in
theorem new_constructs {fd : E -> Int} {mask : E -> Mask} {refused : E -> Bool}
    (l : Eventloop E) (kind : Kind) (ev : E) :
    Constructs l ev (Wrapper.new fd mask refused l kind ev).snd
      (Wrapper.new fd mask refused l kind ev).fst := by
  have hsame : forall e, (some ev : Option E) = some e -> e = ev :=
    fun e he => (Option.some.inj he).symm
  cases kind with
  | bfevent =>
      refine ⟨hsame, ?_, ?_, nofun⟩
      · intro e he
        rcases mem_addEvent.mp he with hold | hnew
        · exact Or.inl hold
        · exact Or.inr ⟨hnew, rfl⟩
      · exact fun e he => mem_addEvent.mpr (Or.inl he)
  | udpevent port =>
      refine ⟨?_, fun e he => Or.inl he, fun e he => he, nofun⟩
      intro e he
      simp only [Wrapper.new, Wrapper.inner] at he
      split at he
      · cases he
      · exact hsame e he
  | timerevent =>
      exact ⟨hsame, fun e he => Or.inl he, fun e he => he, nofun⟩
  | signalevent =>
      exact ⟨hsame, fun e he => Or.inl he, fun e he => he, nofun⟩

variable [DecidableEq E] {fd : E -> Int} {mask : E -> Mask}
variable {refused : E -> Bool}

theorem construct_cases {o : O} {kind : Kind} {ev : E}
    (hstep : s.construct fd mask refused o kind ev = some s') :
    exists l w l', s.loop = some l ∧ s.object o = none ∧
      ev ∉ s.constructed ∧ Constructs l ev l' w ∧
      s' = { s with
        loop := some l'
        object := Function.update s.object o (some w)
        constructed := s.constructed ++ w.inner.toList } := by
  unfold construct at hstep
  cases hl : s.loop with
  | none =>
      rw [hl] at hstep
      cases hstep
  | some l =>
      cases ho : s.object o with
      | some w =>
          rw [hl, ho] at hstep
          cases hstep
      | none =>
          rw [hl, ho] at hstep
          dsimp only at hstep
          split at hstep
          · cases hstep
          · rename_i hnew
            cases hstep
            exact ⟨l, _, _, rfl, rfl, hnew, new_constructs l kind ev, rfl⟩

omit [DecidableEq O] [DecidableEq E] in
theorem mem_construct {constructed : List E} {ev e : E} {w : Wrapper E}
    (hinner : forall e, w.inner = some e -> e = ev) :
    e ∈ constructed ++ w.inner.toList <->
      e ∈ constructed ∨ (e = ev ∧ w.inner = some ev) := by
  rw [List.mem_append, Option.mem_toList]
  constructor
  · intro h
    rcases h with hold | hnew
    · exact Or.inl hold
    · have he := hinner e hnew
      exact Or.inr ⟨he, he ▸ hnew⟩
  · intro h
    rcases h with hold | ⟨he, hnew⟩
    · exact Or.inl hold
    · exact Or.inr (he ▸ hnew)

theorem Inv.construct (h : Inv s) {o : O} {kind : Kind} {ev : E}
    (hstep : s.construct fd mask refused o kind ev = some s') : Inv s' := by
  rcases construct_cases hstep with ⟨l, w, l', hl, ho, hnew, hw, hs'⟩
  subst hs'
  have hlist : s.evlist = l.evlist := evlist_some hl
  have hloop : s.loop ≠ none := by
    rw [hl]
    nofun
  have hgrown : forall e, e ∈ s.constructed ->
      e ∈ s.constructed ++ w.inner.toList :=
    fun e he => List.mem_append_left _ he
  constructor
  case constructed_nodup =>
    show (s.constructed ++ w.inner.toList).Nodup
    cases hinner : w.inner with
    | none =>
        rw [Option.toList_none, List.append_nil]
        exact h.constructed_nodup
    | some e =>
        have he : e ∉ s.constructed := hw.inner e hinner ▸ hnew
        have hconcat := List.Nodup.concat he h.constructed_nodup
        rwa [List.concat_eq_append] at hconcat
  case wakeup_mem =>
    exact hgrown s.wakeup h.wakeup_mem
  case inner_mem =>
    intro x wx e hx he
    rcases update_cases hx with ⟨_, hwx⟩ | ⟨_, hold⟩
    · rw [hwx] at he
      have hev : e = ev := hw.inner e he
      refine ⟨(mem_construct hw.inner).mpr (Or.inr ⟨hev, hev ▸ he⟩), ?_⟩
      intro heq
      exact hnew (hev ▸ heq ▸ h.wakeup_mem)
    · rcases h.inner_mem x wx e hold he with ⟨hmem, hne⟩
      exact ⟨hgrown e hmem, hne⟩
  case inner_inj =>
    intro x y wx wy e hx hy hex hey
    rcases update_cases hx with ⟨hxo, hwx⟩ | ⟨_, holdx⟩
    · rcases update_cases hy with ⟨hyo, _⟩ | ⟨_, holdy⟩
      · exact hxo.trans hyo.symm
      · rw [hwx] at hex
        have hmem := (h.inner_mem y wy e holdy hey).left
        exact absurd (hw.inner e hex ▸ hmem) hnew
    · rcases update_cases hy with ⟨_, hwy⟩ | ⟨_, holdy⟩
      · rw [hwy] at hey
        have hmem := (h.inner_mem x wx e holdx hex).left
        exact absurd (hw.inner e hey ▸ hmem) hnew
      · exact h.inner_inj x y wx wy e holdx holdy hex hey
  case owned =>
    intro _ x wx e hx he hdeleted
    rcases update_cases hx with ⟨_, hwx⟩ | ⟨_, hold⟩
    · rw [hwx] at he
      exact hnew (hw.inner e he ▸ h.deleted_mem e hdeleted)
    · exact h.owned hloop x wx e hold he hdeleted
  case wakeup_listed =>
    intro _
    rcases h.wakeup_listed hloop with ⟨hlisted, hdeleted⟩
    exact ⟨hw.mem_keep s.wakeup (hlist ▸ hlisted), hdeleted⟩
  case closed =>
    intro x e hx hmem
    rcases update_cases hx with ⟨_, hclosed⟩ | ⟨_, hold⟩
    · exact hw.not_closed e hclosed.symm
    · rcases hw.mem_of e hmem with hin | ⟨hev, _⟩
      · rw [<- hlist] at hin
        exact h.closed x e hold hin
      · exact hnew (hev ▸ (h.inner_mem x _ e hold rfl).left)
  case deleted_mem =>
    intro e he
    exact hgrown e (h.deleted_mem e he)
  case listed_mem =>
    intro e he
    rcases hw.mem_of e he with hin | hev
    · rw [<- hlist] at hin
      exact hgrown e (h.listed_mem e hin)
    · exact (mem_construct hw.inner).mpr (Or.inr hev)
  case accounted =>
    intro e he
    rcases (mem_construct hw.inner).mp he with hold | ⟨hev, hinner⟩
    · rcases h.accounted e hold with hdeleted | ⟨x, wx, hx, hwx⟩ | hwakeup
      · exact Or.inl hdeleted
      · refine Or.inr (Or.inl ⟨x, wx, ?_, hwx⟩)
        have hxo : x ≠ o := by
          intro hxo
          rw [hxo, ho] at hx
          cases hx
        show Function.update s.object o _ x = some wx
        rw [Function.update_of_ne hxo]
        exact hx
      · exact Or.inr (Or.inr ⟨hwakeup.left, nofun⟩)
    · exact Or.inr (Or.inl
        ⟨o, w, Function.update_self _ _ _, hev ▸ hinner⟩)
  case queued =>
    intro x hx
    rcases h.queued x hx with ⟨e, started, hudp⟩
    have hxo : x ≠ o := by
      intro hxo
      rw [hxo, ho] at hudp
      cases hudp
    refine ⟨e, started, ?_⟩
    show Function.update s.object o _ x = _
    rw [Function.update_of_ne hxo]
    exact hudp
  case delque_nodup =>
    exact h.delque_nodup

theorem construct_singleOwner (h : Inv s) (hsingle : SingleOwner s)
    {o : O} {kind : Kind} {ev : E}
    (hstep : s.construct fd mask refused o kind ev = some s') :
    SingleOwner s' := by
  apply (singleOwner_iff (h.construct hstep)).mpr
  rcases construct_cases hstep with ⟨l, w, l', hl, _, hnew, hw, hs'⟩
  subst hs'
  refine ⟨?_, hsingle.once⟩
  intro e he hdeleted
  rcases hw.mem_of e he with hin | ⟨hev, _⟩
  · rw [<- evlist_some hl] at hin
    exact hsingle.listed e hin hdeleted
  · exact hnew (hev ▸ h.deleted_mem e hdeleted)

omit [DecidableEq E] in
theorem receiveError_cases {o : O} (hstep : s.receiveError o = some s') :
    (exists ev started,
      s.object o = some (Wrapper.udpevent ev started)) ∧
      s.loop ≠ none ∧ o ∉ s.delque ∧
      s' = { s with delque := s.delque ++ [o] } := by
  unfold receiveError at hstep
  split at hstep
  · rename_i l ev started hl ho
    split at hstep
    · cases hstep
    · rename_i hnew
      cases hstep
      refine ⟨⟨some ev, started, ho⟩, ?_, hnew, rfl⟩
      rw [hl]
      nofun
  · cases hstep

omit [DecidableEq E] in
theorem Inv.receiveError (h : Inv s) {o : O}
    (hstep : s.receiveError o = some s') : Inv s' := by
  rcases receiveError_cases hstep with ⟨hudp, _, hnew, hs'⟩
  subst hs'
  refine { h with queued := ?_, delque_nodup := ?_ }
  · intro x hx
    rcases List.mem_append.mp hx with hold | hlast
    · exact h.queued x hold
    · rw [List.mem_singleton.mp hlast]
      exact hudp
  · have hconcat := List.Nodup.concat hnew h.delque_nodup
    rwa [List.concat_eq_append] at hconcat

omit [DecidableEq E] in
theorem receiveError_singleOwner (hsingle : SingleOwner s) {o : O}
    (hstep : s.receiveError o = some s') : SingleOwner s' := by
  rcases receiveError_cases hstep with ⟨_, _, _, hs'⟩
  subst hs'
  exact { hsingle with complete := hsingle.complete }

/-!
# Destruction of one object
-/

omit [DecidableEq O] in
theorem mem_destructor {l : Eventloop E} {w : Wrapper E} {e : E}
    (hclosed : forall ev, w = Wrapper.bfevent ev true -> ev ∉ l.evlist) :
    e ∈ (w.destructor fd refused l).evlist <->
      e ∈ l.evlist ∧ (w.deregisters -> w.inner ≠ some e) := by
  have hkeep : forall {P : Prop}, ¬ P ->
      (e ∈ l.evlist <-> e ∈ l.evlist ∧ (P -> w.inner ≠ some e)) :=
    fun hP => ⟨fun he => ⟨he, fun h => absurd h hP⟩, fun h => h.left⟩
  cases w with
  | bfevent ev closed =>
      cases closed with
      | true =>
          constructor
          · intro he
            refine ⟨he, fun _ heq => ?_⟩
            rw [<- Option.some.inj heq] at he
            exact hclosed ev rfl he
          · exact fun he => he.left
      | false =>
          refine mem_delEvent.trans (and_congr_right fun _ => ?_)
          constructor
          · exact fun hne _ heq => hne (Option.some.inj heq).symm
          · exact fun hne heq => hne trivial (heq ▸ rfl)
  | udpevent ev started => exact hkeep not_false
  | timerevent ev => exact hkeep not_false
  | signalevent ev => exact hkeep not_false

theorem destroyObject_eq {o : O} {w : Wrapper E} (hw : s.object o = some w) :
    destroyObject fd refused s o =
      { s with
        loop := s.loop.map fun l => w.destructor fd refused l
        object := Function.update s.object o none
        deleted := s.deleted ++ w.inner.toList } := by
  unfold destroyObject
  rw [hw]

theorem mem_evlist_destroyObject (h : Inv s) {o : O} {w : Wrapper E}
    (hw : s.object o = some w) {e : E} :
    e ∈ (destroyObject fd refused s o).evlist <->
      e ∈ s.evlist ∧ (w.deregisters -> w.inner ≠ some e) := by
  rw [destroyObject_eq hw]
  cases hl : s.loop with
  | none =>
      rw [evlist_none hl, evlist_none (by simp)]
      simp
  | some l =>
      rw [evlist_some hl, evlist_some (l := w.destructor fd refused l)
        (by simp)]
      apply mem_destructor
      intro ev hev
      rw [<- evlist_some hl]
      exact h.closed o ev (hev ▸ hw)

theorem Inv.destroyObject (h : Inv s) {o : O} (ho : o ∉ s.delque) :
    Inv (destroyObject fd refused s o) := by
  cases hw : s.object o with
  | none =>
      unfold InnerEvents.destroyObject
      rw [hw]
      exact h
  | some w =>
      have hmem : forall e,
          e ∈ (InnerEvents.destroyObject fd refused s o).evlist <->
            e ∈ s.evlist ∧ (w.deregisters -> w.inner ≠ some e) := by
        intro e
        exact mem_evlist_destroyObject h hw
      rw [destroyObject_eq hw] at hmem ⊢
      have hloop : s.loop.map (fun l => w.destructor fd refused l) ≠ none ->
          s.loop ≠ none := by
        intro hsome hnone
        exact hsome (by rw [hnone]; rfl)
      have hold : forall x wx,
          Function.update s.object o none x = some wx ->
            x ≠ o ∧ s.object x = some wx := by
        intro x wx hx
        by_cases hxo : x = o
        · rw [hxo, Function.update_self] at hx
          cases hx
        · rw [Function.update_of_ne hxo] at hx
          exact ⟨hxo, hx⟩
      constructor
      case constructed_nodup =>
        exact h.constructed_nodup
      case wakeup_mem =>
        exact h.wakeup_mem
      case inner_mem =>
        exact fun x wx e hx he => h.inner_mem x wx e (hold x wx hx).right he
      case inner_inj =>
        intro x y wx wy e hx hy hex hey
        exact h.inner_inj x y wx wy e (hold x wx hx).right
          (hold y wy hy).right hex hey
      case owned =>
        intro hsome x wx e hx he hdeleted
        rcases hold x wx hx with ⟨hxo, hx'⟩
        rcases List.mem_append.mp hdeleted with hbefore | hinner
        · exact h.owned (hloop hsome) x wx e hx' he hbefore
        · exact hxo (h.inner_inj x o wx w e hx' hw he
            (Option.mem_toList.mp hinner))
      case wakeup_listed =>
        intro hsome
        rcases h.wakeup_listed (hloop hsome) with ⟨hlisted, hdeleted⟩
        have hne : w.inner ≠ some s.wakeup :=
          fun heq => (h.inner_mem o w s.wakeup hw heq).right rfl
        refine ⟨(hmem s.wakeup).mpr ⟨hlisted, fun _ => hne⟩, ?_⟩
        intro hin
        rcases List.mem_append.mp hin with hbefore | hinner
        · exact hdeleted hbefore
        · exact hne (Option.mem_toList.mp hinner)
      case closed =>
        intro x e hx he
        exact h.closed x e (hold x _ hx).right ((hmem e).mp he).left
      case deleted_mem =>
        intro e he
        rcases List.mem_append.mp he with hbefore | hinner
        · exact h.deleted_mem e hbefore
        · exact (h.inner_mem o w e hw (Option.mem_toList.mp hinner)).left
      case listed_mem =>
        exact fun e he => h.listed_mem e ((hmem e).mp he).left
      case accounted =>
        intro e he
        rcases h.accounted e he with hdeleted | ⟨x, wx, hx, hwx⟩ | hwakeup
        · exact Or.inl (List.mem_append_left _ hdeleted)
        · by_cases hxo : x = o
          · rw [hxo, hw] at hx
            cases hx
            exact Or.inl (List.mem_append_right _ (Option.mem_toList.mpr hwx))
          · refine Or.inr (Or.inl ⟨x, wx, ?_, hwx⟩)
            show Function.update s.object o none x = some wx
            rw [Function.update_of_ne hxo]
            exact hx
        · refine Or.inr (Or.inr ⟨hwakeup.left, ?_⟩)
          intro hnone
          exact hwakeup.right (Option.map_eq_none_iff.mp hnone)
      case queued =>
        intro x hx
        rcases h.queued x hx with ⟨e, started, hudp⟩
        have hxo : x ≠ o := fun heq => ho (heq ▸ hx)
        refine ⟨e, started, ?_⟩
        show Function.update s.object o none x = _
        rw [Function.update_of_ne hxo]
        exact hudp
      case delque_nodup =>
        exact h.delque_nodup

theorem destroyObject_singleOwner_iff (h : Inv s) (hsingle : SingleOwner s)
    {o : O} (ho : o ∉ s.delque) {w : Wrapper E} (hw : s.object o = some w) :
    SingleOwner (destroyObject fd refused s o) <-> s.Releasable o := by
  refine (singleOwner_iff (h.destroyObject ho)).trans ?_
  have hmem : forall e, e ∈ (destroyObject fd refused s o).evlist <->
      e ∈ s.evlist ∧ (w.deregisters -> w.inner ≠ some e) := by
    intro e
    exact mem_evlist_destroyObject h hw
  have hdeleted : (destroyObject fd refused s o).deleted =
      s.deleted ++ w.inner.toList := by
    rw [destroyObject_eq hw]
  simp only [Releasable, hw, hdeleted]
  constructor
  · intro hsplit e he
    rw [he] at hsplit
    have hnodup : (s.deleted ++ [e]).Nodup := hsplit.right
    constructor
    · intro hin
      exact List.disjoint_of_nodup_append hnodup hin (List.mem_singleton_self e)
    · by_cases hderegisters : w.deregisters
      · exact Or.inl hderegisters
      · refine Or.inr fun hlisted => ?_
        have hstill := (hmem e).mpr
          ⟨hlisted, fun hyes => absurd hyes hderegisters⟩
        exact hsplit.left e hstill
          (List.mem_append_right _ (List.mem_singleton_self e))
  · intro hrelease
    constructor
    · intro e he hin
      rcases (hmem e).mp he with ⟨hlisted, hnot⟩
      rcases List.mem_append.mp hin with hbefore | hinner
      · exact hsingle.listed e hlisted hbefore
      · have hinner' : w.inner = some e := Option.mem_toList.mp hinner
        rcases (hrelease e hinner').right with hderegisters | hunlisted
        · exact hnot hderegisters hinner'
        · exact hunlisted hlisted
    · cases hinner : w.inner with
      | none =>
          rw [Option.toList_none, List.append_nil]
          exact hsingle.once
      | some e =>
          have hconcat :=
            List.Nodup.concat (hrelease e hinner).left hsingle.once
          rwa [List.concat_eq_append] at hconcat

/-!
# Destruction of the queued objects
-/

section Queued

variable {o : O} {ev : Option E} {started : Bool}

theorem mem_evlist_destroyUdpevent (h : Inv s)
    (hw : s.object o = some (Wrapper.udpevent ev started)) {e : E} :
    e ∈ (destroyObject fd refused s o).evlist <-> e ∈ s.evlist := by
  refine (mem_evlist_destroyObject h hw).trans ?_
  exact ⟨fun he => he.left, fun he => ⟨he, fun hno => hno.elim⟩⟩

theorem destroyUdpevent_singleOwner_iff (h : Inv s) (ho : o ∉ s.delque)
    (hw : s.object o = some (Wrapper.udpevent ev started)) :
    SingleOwner (destroyObject fd refused s o) <->
      SingleOwner s ∧ s.Releasable o := by
  have hdeleted : (destroyObject fd refused s o).deleted =
      s.deleted ++ ev.toList := by
    rw [destroyObject_eq hw]
    rfl
  have hback : SingleOwner (destroyObject fd refused s o) ->
      SingleOwner s := by
    intro hsingle
    apply (singleOwner_iff h).mpr
    constructor
    · intro e he hin
      apply hsingle.listed e ((mem_evlist_destroyUdpevent h hw).mpr he)
      rw [hdeleted]
      exact List.mem_append_left _ hin
    · have hnodup := hsingle.once
      rw [hdeleted] at hnodup
      exact hnodup.of_append_left
  constructor
  · intro hsingle
    have hsingle' := hback hsingle
    exact ⟨hsingle', (destroyObject_singleOwner_iff h hsingle' ho hw).mp hsingle⟩
  · intro hboth
    exact (destroyObject_singleOwner_iff h hboth.left ho hw).mpr hboth.right

theorem releasable_destroyUdpevent_iff (h : Inv s)
    (hw : s.object o = some (Wrapper.udpevent ev started)) {x : O}
    (hx : x ≠ o) :
    (destroyObject fd refused s o).Releasable x <-> s.Releasable x := by
  have hmem : forall e,
      e ∈ (destroyObject fd refused s o).evlist <-> e ∈ s.evlist := by
    intro e
    exact mem_evlist_destroyUdpevent h hw
  have hobject : (destroyObject fd refused s o).object x = s.object x := by
    rw [destroyObject_eq hw]
    exact Function.update_of_ne hx _ _
  have hdeleted : (destroyObject fd refused s o).deleted =
      s.deleted ++ ev.toList := by
    rw [destroyObject_eq hw]
    rfl
  unfold Releasable
  rw [hobject, hdeleted]
  cases hwx : s.object x with
  | none => exact Iff.rfl
  | some wx =>
      refine forall_congr' fun e => imp_congr_right fun he => ?_
      rw [hmem e, List.mem_append, not_or]
      have hother : e ∉ ev.toList := by
        intro hin
        exact hx (h.inner_inj x o wx _ e hwx hw he (Option.mem_toList.mp hin))
      exact and_congr_left fun _ => and_iff_left hother

end Queued

theorem deleteAll_spec {os : List O} (h : Inv s) (hdelque : s.delque = [])
    (hnodup : os.Nodup)
    (hudp : forall o, o ∈ os ->
      exists ev started, s.object o = some (Wrapper.udpevent ev started)) :
    Inv (os.foldl (destroyObject fd refused) s) ∧
      (SingleOwner (os.foldl (destroyObject fd refused) s) <->
        SingleOwner s ∧ forall o, o ∈ os -> s.Releasable o) := by
  induction os generalizing s with
  | nil =>
      simp [h]
  | cons o rest ih =>
      rcases hudp o List.mem_cons_self with ⟨ev, started, hw⟩
      rcases List.nodup_cons.mp hnodup with ⟨hfirst, hrest⟩
      have hnot : o ∉ s.delque := by
        rw [hdelque]
        nofun
      have hother : forall x, x ∈ rest -> x ≠ o :=
        fun x hx heq => hfirst (heq ▸ hx)
      have hqueue : (destroyObject fd refused s o).delque = [] := by
        rw [destroyObject_eq hw]
        exact hdelque
      have hudp' : forall x, x ∈ rest -> exists ev started,
          (destroyObject fd refused s o).object x =
            some (Wrapper.udpevent ev started) := by
        intro x hx
        rw [destroyObject_eq hw]
        show exists ev started, Function.update s.object o none x = _
        rw [Function.update_of_ne (hother x hx)]
        exact hudp x (List.mem_cons_of_mem o hx)
      rcases ih (h.destroyObject hnot) hqueue hrest hudp' with ⟨hinv, hiff⟩
      refine ⟨hinv, hiff.trans ?_⟩
      rw [destroyUdpevent_singleOwner_iff h hnot hw, List.forall_mem_cons,
        and_assoc]
      refine and_congr_right fun _ => and_congr_right fun _ => ?_
      refine forall_congr' fun x => imp_congr_right fun hx => ?_
      exact releasable_destroyUdpevent_iff h hw (hother x hx)

omit [DecidableEq O] [DecidableEq E] in
theorem Inv.forget (h : Inv s) : Inv { s with delque := [] } where
  constructed_nodup := h.constructed_nodup
  wakeup_mem := h.wakeup_mem
  inner_mem := h.inner_mem
  inner_inj := h.inner_inj
  owned := h.owned
  wakeup_listed := h.wakeup_listed
  closed := h.closed
  deleted_mem := h.deleted_mem
  listed_mem := h.listed_mem
  accounted := h.accounted
  queued := nofun
  delque_nodup := List.nodup_nil

omit [DecidableEq O] [DecidableEq E] in
theorem forget_singleOwner_iff (h : Inv s) :
    SingleOwner { s with delque := [] } <-> SingleOwner s :=
  (singleOwner_iff h.forget).trans (singleOwner_iff h).symm

theorem deleteQueued_spec (h : Inv s) :
    Inv (deleteQueued fd refused s) ∧
      (SingleOwner (deleteQueued fd refused s) <->
        SingleOwner s ∧ forall o, o ∈ s.delque -> s.Releasable o) := by
  have hspec : Inv (deleteQueued fd refused s) ∧
      (SingleOwner (deleteQueued fd refused s) <->
        SingleOwner { s with delque := [] } ∧
          forall o, o ∈ s.delque -> s.Releasable o) :=
    deleteAll_spec h.forget rfl h.delque_nodup h.queued
  exact ⟨hspec.left,
    hspec.right.trans (and_congr_left fun _ => forget_singleOwner_iff h)⟩

/-!
# Destruction of the loop
-/

def listDeleted (s : InnerEvents O E) : InnerEvents O E :=
  { s with loop := none, deleted := s.deleted ++ s.evlist }

omit [DecidableEq O] [DecidableEq E] in
theorem Inv.listDeleted (h : Inv s) (hloop : s.loop ≠ none) :
    Inv s.listDeleted where
  constructed_nodup := h.constructed_nodup
  wakeup_mem := h.wakeup_mem
  inner_mem := h.inner_mem
  inner_inj := h.inner_inj
  owned := fun hnone => absurd rfl hnone
  wakeup_listed := fun hnone => absurd rfl hnone
  closed := nofun
  deleted_mem := by
    intro e he
    rcases List.mem_append.mp he with hbefore | hlisted
    · exact h.deleted_mem e hbefore
    · exact h.listed_mem e hlisted
  listed_mem := nofun
  accounted := by
    intro e he
    rcases h.accounted e he with hdeleted | howned | ⟨hwakeup, _⟩
    · exact Or.inl (List.mem_append_left _ hdeleted)
    · exact Or.inr (Or.inl howned)
    · refine Or.inl (List.mem_append_right _ ?_)
      rw [hwakeup]
      exact (h.wakeup_listed hloop).left
  queued := h.queued
  delque_nodup := h.delque_nodup

omit [DecidableEq O] [DecidableEq E] in
theorem listDeleted_singleOwner_iff (h : Inv s) (hsingle : SingleOwner s)
    (hloop : s.loop ≠ none) :
    SingleOwner s.listDeleted <-> s.evlist.Nodup := by
  refine (singleOwner_iff (h.listDeleted hloop)).trans ?_
  constructor
  · intro hsplit
    have hnodup : (s.deleted ++ s.evlist).Nodup := hsplit.right
    exact hnodup.of_append_right
  · intro hnodup
    refine ⟨nofun, ?_⟩
    show (s.deleted ++ s.evlist).Nodup
    apply hsingle.once.append hnodup
    intro e hdeleted hlisted
    exact hsingle.listed e hlisted hdeleted

omit [DecidableEq O] [DecidableEq E] in
theorem listDeleted_releasable_iff (h : Inv s) (hloop : s.loop ≠ none)
    (o : O) :
    s.listDeleted.Releasable o <->
      forall w ev, s.object o = some w -> w.inner = some ev ->
        ev ∉ s.evlist := by
  have hobject : s.listDeleted.object o = s.object o := rfl
  unfold Releasable
  rw [hobject]
  cases hw : s.object o with
  | none =>
      exact ⟨fun _ => nofun, fun _ => trivial⟩
  | some w =>
      constructor
      · intro hrelease w' e hw' he hlisted
        cases hw'
        exact (hrelease e he).left (List.mem_append_right _ hlisted)
      · intro hunlisted e he
        refine ⟨?_, Or.inr nofun⟩
        intro hin
        rcases List.mem_append.mp hin with hbefore | hlisted
        · exact h.owned hloop o w e hw he hbefore
        · exact hunlisted w e rfl he hlisted

theorem destroyLoop_eq (hstep : s.destroyLoop fd refused = some s') :
    s.loop ≠ none ∧ s' = deleteQueued fd refused s.listDeleted := by
  unfold destroyLoop at hstep
  cases hl : s.loop with
  | none =>
      rw [hl] at hstep
      cases hstep
  | some l =>
      rw [hl] at hstep
      cases hstep
      refine ⟨nofun, ?_⟩
      unfold listDeleted
      rw [evlist_some hl]

/-!
# Runs
-/

theorem Inv.step (h : Inv s) {a : Action O E}
    (hstep : step fd mask refused s a = some s') : Inv s' := by
  cases a with
  | construct o kind ev => exact h.construct hstep
  | enableListen o => exact h.call enableListen_touches hstep
  | delListen o => exact h.call delListen_touches hstep
  | close o => exact h.call close_touches hstep
  | receiveError o => exact h.receiveError hstep
  | endBatch =>
      simp only [InnerEvents.step] at hstep
      split at hstep
      · cases hstep
      · cases hstep
        exact (deleteQueued_spec h).left
  | destroy o =>
      simp only [InnerEvents.step] at hstep
      split at hstep
      · cases hstep
      · rename_i halive
        cases hstep
        exact h.destroyObject fun hin => halive (Or.inr hin)
  | destroyLoop =>
      rcases destroyLoop_eq hstep with ⟨hloop, hs'⟩
      subst hs'
      exact (deleteQueued_spec (h.listDeleted hloop)).left

theorem step_singleOwner_iff (h : Inv s) (hsingle : SingleOwner s)
    {a : Action O E} (hstep : step fd mask refused s a = some s') :
    SingleOwner s' <-> s.Releases a := by
  cases a with
  | construct o kind ev =>
      exact iff_of_true (construct_singleOwner h hsingle hstep) trivial
  | enableListen o =>
      exact iff_of_true
        (call_singleOwner h hsingle enableListen_touches hstep) trivial
  | delListen o =>
      exact iff_of_true
        (call_singleOwner h hsingle delListen_touches hstep) trivial
  | close o =>
      exact iff_of_true
        (call_singleOwner h hsingle close_touches hstep) trivial
  | receiveError o =>
      exact iff_of_true (receiveError_singleOwner hsingle hstep) trivial
  | endBatch =>
      simp only [InnerEvents.step] at hstep
      split at hstep
      · cases hstep
      · cases hstep
        exact (deleteQueued_spec h).right.trans (and_iff_right hsingle)
  | destroy o =>
      simp only [InnerEvents.step] at hstep
      split at hstep
      · cases hstep
      · rename_i halive
        cases hstep
        cases hw : s.object o with
        | none =>
            exact absurd (Or.inl (by rw [hw]; rfl)) halive
        | some w =>
            exact destroyObject_singleOwner_iff h hsingle
              (fun hin => halive (Or.inr hin)) hw
  | destroyLoop =>
      rcases destroyLoop_eq hstep with ⟨hloop, hs'⟩
      subst hs'
      refine (deleteQueued_spec (h.listDeleted hloop)).right.trans ?_
      refine and_congr (listDeleted_singleOwner_iff h hsingle hloop) ?_
      refine forall_congr' fun o => imp_congr_right fun _ => ?_
      exact listDeleted_releasable_iff h hloop o

/--
Every inner event has a single owner throughout a run exactly if every step
releases what it destroys.
-/
theorem singleOwner_iff_releases (fd : E -> Int) (mask : E -> Mask)
    (refused : E -> Bool) (wakeup : E) (acts : List (Action O E))
    (s : InnerEvents O E)
    (hrun : StepFn.run (step fd mask refused) (start fd mask refused wakeup)
      acts = some s) :
    StepFn.Throughout (step fd mask refused) SingleOwner
        (start fd mask refused wakeup) acts <->
      StepFn.Meets (step fd mask refused) Releases
        (start fd mask refused wakeup) acts := by
  have hinv : Inv (start fd mask refused wakeup : InnerEvents O E) :=
    start_inv wakeup
  have hside : StepFn.Meets (step fd mask refused) (fun s _ => Inv s)
      (start fd mask refused wakeup : InnerEvents O E) acts :=
    StepFn.meets_of_invariant (fun _ _ _ h hstep => Inv.step h hstep) hinv acts
  have hsingle : SingleOwner (start fd mask refused wakeup :
      InnerEvents O E) :=
    (singleOwner_iff hinv).mpr ⟨fun _ _ => nofun, List.nodup_nil⟩
  have hiff : forall (s : InnerEvents O E) a s', SingleOwner s -> Inv s ->
      step fd mask refused s a = some s' -> (SingleOwner s' <-> Releases s a) :=
    fun s a s' hs h hstep => step_singleOwner_iff h hs hstep
  exact StepFn.throughout_iff_meets hiff hsingle hside hrun

end Steps

/-- A connection and a timer that is closed before it is destroyed. -/
theorem singleOwner_iff_releases_closedTimer :
    exists s : InnerEvents Nat Nat,
      SingleOwner s ∧ s.deleted = [1, 2, 0] ∧ s.constructed = [0, 1, 2] := by
  let acts : List (Action Nat Nat) :=
    [Action.construct 1 Kind.bfevent 1, Action.construct 2 Kind.timerevent 2,
      Action.enableListen 2, Action.destroy 1, Action.close 2,
      Action.destroy 2, Action.destroyLoop]
  have hreached : exists s : InnerEvents Nat Nat,
      StepFn.run (step Int.ofNat (fun _ => EPOLLIN) fun _ => false)
          (start Int.ofNat (fun _ => EPOLLIN) (fun _ => false) 0) acts =
            some s ∧
        s.deleted = [1, 2, 0] ∧ s.constructed = [0, 1, 2] :=
    ⟨_, rfl, rfl, rfl⟩
  rcases hreached with ⟨s, hrun, hdeleted, hconstructed⟩
  have hmeets : StepFn.Meets (step Int.ofNat (fun _ => EPOLLIN) fun _ => false)
      Releases (start Int.ofNat (fun _ => EPOLLIN) (fun _ => false) 0)
      acts := by
    refine ⟨trivial, trivial, trivial, ?_, trivial, ?_, ?_, trivial⟩
    · intro ev hev
      cases hev
      exact ⟨nofun, Or.inl trivial⟩
    · intro ev hev
      cases hev
      exact ⟨by decide, Or.inr (by decide)⟩
    · exact ⟨by decide, nofun⟩
  have hthroughout := (singleOwner_iff_releases Int.ofNat (fun _ => EPOLLIN)
    (fun _ => false) 0 acts s hrun).mpr hmeets
  exact ⟨s, StepFn.throughout_last hthroughout hrun, hdeleted, hconstructed⟩

/-- A timer that still listens when it is destroyed. -/
theorem listening_timer_deleted_twice :
    exists s t : InnerEvents Nat Nat,
      StepFn.run (step Int.ofNat (fun _ => EPOLLIN) fun _ => false)
          (start Int.ofNat (fun _ => EPOLLIN) (fun _ => false) 0)
          [Action.construct 1 Kind.timerevent 1, Action.enableListen 1,
            Action.destroy 1] = some s ∧
        step Int.ofNat (fun _ => EPOLLIN) (fun _ => false) s
          Action.destroyLoop = some t ∧
        1 ∈ s.evlist ∧ 1 ∈ s.deleted ∧ t.deleted.count 1 = 2 ∧
        ¬ SingleOwner s ∧ ¬ SingleOwner t := by
  have hreached : exists s t : InnerEvents Nat Nat,
      StepFn.run (step Int.ofNat (fun _ => EPOLLIN) fun _ => false)
          (start Int.ofNat (fun _ => EPOLLIN) (fun _ => false) 0)
          [Action.construct 1 Kind.timerevent 1, Action.enableListen 1,
            Action.destroy 1] = some s ∧
        step Int.ofNat (fun _ => EPOLLIN) (fun _ => false) s
          Action.destroyLoop = some t ∧
        s.evlist = [0, 1] ∧ s.deleted = [1] ∧ t.deleted = [1, 0, 1] :=
    ⟨_, _, rfl, rfl, rfl, rfl, rfl⟩
  rcases hreached with ⟨s, t, hrun, hdestroy, hevlist, hdeleted, hdeleted'⟩
  refine ⟨s, t, hrun, hdestroy, ?_, ?_, ?_, ?_, ?_⟩
  · rw [hevlist]
    decide
  · rw [hdeleted]
    decide
  · rw [hdeleted']
    decide
  · intro hsingle
    have hnot := hsingle.listed 1
    rw [hevlist, hdeleted] at hnot
    exact hnot (by decide) (by decide)
  · intro hsingle
    have honce := hsingle.once
    rw [hdeleted'] at honce
    revert honce
    decide

end InnerEvents

end MoonNet
