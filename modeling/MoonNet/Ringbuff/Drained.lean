import Mathlib.Data.Nat.ModEq
import MoonNet.Ringbuff.Exclusive

/-!
# What a drain leaves in the ring buffer

A drain takes everything up to the head it has loaded.  The head counts the
accepted items modulo the capacity, so the head that was loaded still tells how
many items had been accepted by then, and once the drain has returned at least
so many have been read.
-/

namespace MoonNet

open Foundation
open Foundation.Circular

universe u v

namespace Ringbuff

namespace Spsc

variable {T : Type u} {s s' : Spsc T} {n : Nat}

/-!
# Counting
-/

def HeadCounts (s : Spsc T) : Prop :=
  s.ring.head = s.published.length % s.ring.capacity

theorem Inv.length_eq (h : Inv s) :
    s.obtained.length + s.ring.held = s.published.length + s.copied := by
  have hcopied := h.copied_le
  have hlength : s.published.length =
      s.obtained.length + (s.ring.held - s.copied) := by
    rw [h.flow, List.length_append]
    unfold unread
    rw [window_length]
  omega

theorem Inv.le_distance (h : Inv s) (hcounts : s.HeadCounts) {k : Nat}
    (hk : k <= s.published.length) :
    k + s.copied <= s.obtained.length +
      distance s.ring.capacity s.ring.tail (k % s.ring.capacity) := by
  have hlength := h.length_eq
  have hheld := h.valid.held_lt
  by_cases hread : k + s.copied <= s.obtained.length
  · exact Nat.le_trans hread (Nat.le_add_right _ _)
  · -- `k` lies as far behind the tail as items up to it are unread
    have hmod : (s.ring.tail + (k + s.copied - s.obtained.length)) %
        s.ring.capacity = k % s.ring.capacity := by
      have hhead : (s.ring.tail + s.ring.held) % s.ring.capacity =
          s.published.length % s.ring.capacity := by
        rw [h.valid.tail_add_held]
        exact hcounts
      apply Nat.ModEq.add_right_cancel' (s.published.length - k)
      rw [show s.ring.tail + (k + s.copied - s.obtained.length) +
          (s.published.length - k) = s.ring.tail + s.ring.held by omega,
        Nat.add_sub_cancel' hk]
      exact hhead
    rw [<- hmod, distance_add h.valid.tail_lt (by omega)]
    omega

theorem Inv.produce_headCounts (h : Inv s) (hcounts : s.HeadCounts)
    (hstep : s.produce = some s') : s'.HeadCounts := by
  rcases produce_cases hstep with hquiet | hwrite | hstore
  · rcases hquiet with ⟨_, p, hs', _⟩
    rw [hs']
    exact hcounts
  · rcases hwrite with ⟨item, head, nhead, buffer, _, _, hs'⟩
    rw [hs']
    exact hcounts
  · rcases hstore with ⟨item, nhead, hp, hs'⟩
    have hlocal := h.producer
    rw [hp] at hlocal
    rw [hs']
    show nhead = (s.published ++ [item]).length % s.ring.capacity
    rw [hlocal.left, hcounts, List.length_append, Nat.mod_add_mod]
    rfl

theorem produce_keeps (hstep : s.produce = some s') :
    s'.ring.tail = s.ring.tail ∧ s'.ring.capacity = s.ring.capacity ∧
      s'.copied = s.copied ∧ s.published <+: s'.published := by
  rcases produce_cases hstep with hquiet | hwrite | hstore
  · rcases hquiet with ⟨_, p, hs', _⟩
    rw [hs']
    exact ⟨rfl, rfl, rfl, List.prefix_rfl⟩
  · rcases hwrite with ⟨item, head, nhead, buffer, _, _, hs'⟩
    rw [hs']
    exact ⟨rfl, rfl, rfl, List.prefix_rfl⟩
  · rcases hstore with ⟨item, nhead, _, hs'⟩
    rw [hs']
    exact ⟨rfl, rfl, rfl, List.prefix_append _ _⟩

/-!
# Drains
-/

def Covers (s : Spsc T) (n : Nat) : Prop :=
  match s.consumer with
  | Consumer.drainLoadHead => n <= s.published.length
  | Consumer.drainLoadTail head =>
      exists k, n <= k ∧ k <= s.published.length ∧
        head = k % s.ring.capacity
  | Consumer.copyLoop _ _ _ head =>
      n + s.copied <=
        s.obtained.length + distance s.ring.capacity s.ring.tail head
  | Consumer.drained => n <= s.obtained.length
  | _ => True

theorem Covers.frame (h : s.Covers n) (hconsumer : s'.consumer = s.consumer)
    (hcapacity : s'.ring.capacity = s.ring.capacity)
    (hpublished : s.published.length <= s'.published.length)
    (hobtained : s.obtained.length <= s'.obtained.length)
    (hsection : Shared.Releasing s.consumer ->
      s'.ring.tail = s.ring.tail ∧ s'.copied = s.copied) : s'.Covers n := by
  unfold Covers at h ⊢
  rw [hconsumer]
  cases hc : s.consumer with
  | drainLoadHead =>
      rw [hc] at h
      exact Nat.le_trans h hpublished
  | drainLoadTail head =>
      rw [hc] at h
      rcases h with ⟨k, hn, hk, hhead⟩
      rw [<- hcapacity] at hhead
      exact ⟨k, hn, Nat.le_trans hk hpublished, hhead⟩
  | copyLoop i limit wraps head =>
      rw [hc] at h hsection
      rcases hsection trivial with ⟨htail, hcopied⟩
      show n + s'.copied <=
        s'.obtained.length + distance s'.ring.capacity s'.ring.tail head
      rw [htail, hcopied, hcapacity]
      exact Nat.le_trans h (Nat.add_le_add_right hobtained _)
  | drained =>
      rw [hc] at h
      exact Nat.le_trans h hobtained
  | _ => trivial

theorem Inv.copyLoop_covers (h : Inv s) {moved : T -> T} {i limit head : Nat}
    {wraps : Bool} (hc : s.consumer = Consumer.copyLoop i limit wraps head)
    (hcovers : s.Covers n) (hstep : s.consume moved = some s') :
    s'.Covers n := by
  have hlocal := h.consumer
  rw [hc] at hlocal
  rcases hlocal with ⟨count, hcount, hcursor⟩
  unfold Covers at hcovers
  rw [hc] at hcovers
  simp only [consume, hc] at hstep
  split at hstep
  · simp only [obtain, Option.map_eq_some_iff] at hstep
    rcases hstep with ⟨x, _, hs'⟩
    subst hs'
    show n + (s.copied + 1) <= (s.obtained ++ [x.snd]).length +
      distance s.ring.capacity s.ring.tail head
    rw [List.length_append]
    show n + (s.copied + 1) <= s.obtained.length + 1 +
      distance s.ring.capacity s.ring.tail head
    omega
  · rename_i hend
    split at hstep
    · cases hstep
      exact hcovers
    · rename_i hwraps
      cases hstep
      have hfalse : wraps = false := Bool.eq_false_of_not_eq_true hwraps
      subst hfalse
      rcases hcursor.finish hend with ⟨hcopied, hhead⟩
      have hdistance : distance s.ring.capacity s.ring.tail head = count := by
        rw [hhead]
        exact distance_add h.valid.tail_lt
          (Nat.lt_of_le_of_lt hcount h.valid.held_lt)
      have hall : n + s.copied <= s.obtained.length +
          distance s.ring.capacity s.ring.tail head := hcovers
      show n <= s.obtained.length
      rw [hdistance] at hall
      omega

end Spsc

namespace Shared

variable {ι : Type v} {T : Type u} {s : Shared ι T} {i j : ι} {q : Spsc T}
  {n : Nat} {p : Producer T}

theorem Consuming.consume_covers (h : s.Consuming p)
    (hcounts : (s.focus i).HeadCounts) {moved : T -> T}
    (hcovers : (s.focus i).Covers n)
    (hstep : (s.focus i).consume moved = some q) : q.Covers n := by
  rcases h with ⟨c, hinv, hconsumer⟩
  cases hc : s.consumer i with
  | drainLoadHead =>
      unfold Spsc.Covers at hcovers
      simp only [focus, view, hc] at hcovers
      simp only [Spsc.consume, focus, view, hc, Option.some.injEq] at hstep
      subst hstep
      exact ⟨s.accepted.length, hcovers, Nat.le_refl _, hcounts⟩
  | drainLoadTail head =>
      unfold Spsc.Covers at hcovers
      simp only [focus, view, hc] at hcovers
      rcases hcovers with ⟨k, hn, hk, hhead⟩
      have hle : k + s.copied <= (s.obtained.map Prod.snd).length +
          distance s.ring.capacity s.ring.tail head := by
        rw [hhead]
        exact hinv.le_distance hcounts hk
      simp only [Spsc.consume, focus, view, hc] at hstep
      split at hstep
      · rename_i hempty
        cases hstep
        have hzero : distance s.ring.capacity s.ring.tail head = 0 := by
          rw [<- hempty]
          unfold distance
          rw [Nat.add_sub_cancel_left, Nat.mod_self]
        show n <= (s.obtained.map Prod.snd).length
        rw [hzero] at hle
        omega
      · have hcopy : n + s.copied <= (s.obtained.map Prod.snd).length +
            distance s.ring.capacity s.ring.tail head :=
          Nat.le_trans (Nat.add_le_add_right hn _) hle
        split at hstep
        · cases hstep
          exact hcopy
        · cases hstep
          exact hcopy
  | copyLoop first limit wraps head =>
      have hbusy : Releasing (s.consumer i) := by
        rw [hc]
        trivial
      rw [<- hconsumer.eq_of_busy i hbusy] at hinv
      have hviewed : (s.view p (s.consumer i)).consume moved =
          some { q with producer := p } :=
        Spsc.consume_withProducer hstep p
      have hnext : Spsc.Covers { q with producer := p } n :=
        hinv.copyLoop_covers hc hcovers hviewed
      exact hnext
  | popLoadHead move tail =>
      simp only [Spsc.consume, focus, view, hc] at hstep
      split at hstep
      · cases hstep
        trivial
      · cases hstep
        trivial
  | popRead move tail =>
      simp only [Spsc.consume, Spsc.obtain, focus, view, hc,
        Option.map_eq_some_iff] at hstep
      rcases hstep with ⟨x, _, hq⟩
      subst hq
      trivial
  | _ =>
      simp only [Spsc.consume, focus, view, hc, reduceCtorEq,
        Option.some.injEq] at hstep
      try
        subst hstep
        trivial

variable [DecidableEq ι]

theorem focus_unfocus (h : s.obtained.map Prod.snd <+: q.obtained) :
    (s.unfocus i q).focus i = q := by
  have hproducer : (s.unfocus i q).producer i = q.producer :=
    Function.update_self _ _ _
  have hconsumer : (s.unfocus i q).consumer i = q.consumer :=
    Function.update_self _ _ _
  unfold focus
  rw [hproducer, hconsumer, view_unfocus h]

theorem focus_unfocus_other (h : s.obtained.map Prod.snd <+: q.obtained)
    {j : ι} (hconsumer : (s.unfocus j q).consumer i = s.consumer i) :
    (s.unfocus j q).focus i =
      { q with
        producer := (s.unfocus j q).producer i
        consumer := s.consumer i } := by
  unfold focus
  rw [view_unfocus h, hconsumer]

theorem Consuming.covers_of_ne (h : s.Consuming p) (hne : i ≠ j)
    {moved : T -> T} (halone : s.ReadsAlone j)
    (hcovers : (s.focus i).Covers n)
    (hstep : (s.focus j).consume moved = some q) :
    ((s.unfocus j q).focus i).Covers n := by
  rcases Spsc.consume_frame hstep with ⟨_, haccepted, hobtained⟩
  have hconsumer : (s.unfocus j q).consumer i = s.consumer i :=
    Function.update_of_ne hne _ _
  have hcapacity : q.ring.capacity = s.ring.capacity :=
    (Spsc.consume_keeps hstep).left
  have hpublished : s.accepted.length <= q.published.length := by
    rw [haccepted]
    exact Nat.le_refl _
  rw [focus_unfocus_other hobtained hconsumer]
  apply hcovers.frame
  · rfl
  · exact hcapacity
  · exact hpublished
  · exact hobtained.length_le
  intro hbusy
  have hothers : ¬ Releasing (s.consumer j) := by
    rcases h with ⟨c, _, hsole⟩
    exact hsole.not_busy_of_ne hbusy j hne.symm
  unfold ReadsAlone at halone
  rcases Spsc.consume_cases hstep with
    hquiet | hread | hstore | hdrain | hcopy
  · rcases hquiet with ⟨_, c, hq, _⟩
    rw [hq]
    exact ⟨rfl, rfl⟩
  · rcases hread with ⟨move, tail, x, buffer, hj, _⟩
    rw [show s.consumer j = Consumer.popRead move tail from hj] at halone
    exact absurd hbusy (halone.right.right i hne)
  · rcases hstore with ⟨item, tail, hj, _⟩
    rw [show s.consumer j = Consumer.popStoreTail item tail from hj] at hothers
    exact absurd trivial hothers
  · rcases hdrain with ⟨head, hj, hitems, _⟩
    rw [show s.consumer j = Consumer.drainLoadTail head from hj] at halone
    exact absurd hbusy ((halone hitems).right.right i hne)
  · rcases hcopy with ⟨first, limit, wraps, head, hj, _⟩
    rw [show s.consumer j = Consumer.copyLoop first limit wraps head from hj]
      at hothers
    exact absurd trivial hothers

theorem produce_covers (hcovers : (s.focus i).Covers n)
    (hstep : (s.focus j).produce = some q) :
    ((s.unfocus j q).focus i).Covers n := by
  rcases Spsc.produce_frame hstep with ⟨hsame, hobtained⟩
  rcases Spsc.produce_keeps hstep with ⟨htail, hcapacity, hcopied, haccepted⟩
  have hconsumer : (s.unfocus j q).consumer = s.consumer := by
    unfold unfocus
    rw [hsame]
    exact Function.update_eq_self j s.consumer
  have hprefix : s.obtained.map Prod.snd <+: q.obtained :=
    ⟨[], by rw [hobtained, List.append_nil]; rfl⟩
  rw [focus_unfocus_other hprefix (congrFun hconsumer i)]
  apply hcovers.frame
  · rfl
  · exact hcapacity
  · exact haccepted.length_le
  · exact hprefix.length_le
  · intro _
    exact ⟨htail, hcopied⟩

end Shared

end Ringbuff

end MoonNet
