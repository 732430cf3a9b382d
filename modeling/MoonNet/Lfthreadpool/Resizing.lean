import MoonNet.Lfthreadpool.Model

/-!
# The pools keep their size

Both pools start with as many members as `min_tnum` says and resize only with
more members than that, so they never resize.  The mentor of an `Lfthreadpool`
does not even get that far, because its loop ends at once.
-/

namespace MoonNet

open Foundation

universe u

namespace Lfthreadpool

variable {τ : Type u} {moved : Task τ -> Task τ} {p p' : Lfthreadpool τ}
variable {n : Nat}

/-- The pool has the `n` workers it was made with, and `n` is its least number. -/
structure Inert (n : Nat) (p : Lfthreadpool τ) : Prop where
  tnum_eq : p.tnum = n
  length_eq : p.workers.length = n
  minTnum_eq : p.minTnum = wrap32 n

theorem new_inert {hardware buffsize : Nat} {mode : PoolMode} (hn : 0 < n) :
    Inert n (new hardware n buffsize mode : Lfthreadpool τ) := by
  have hpos : ¬ (n : Int) <= 0 := by
    omega
  have hnew : (new hardware n buffsize mode : Lfthreadpool τ) =
      ((members buffsize mode).setnum n).init := by
    unfold new
    rw [if_neg hpos, Int.toNat_natCast]
  rw [hnew]
  constructor
  · rfl
  · simp [init, setnum, members]
  · simp only [init, setnum]

theorem Inert.of_same (h : Inert n p) (htnum : p'.tnum = p.tnum)
    (hlength : p'.workers.length = p.workers.length)
    (hmin : p'.minTnum = p.minTnum) : Inert n p' where
  tnum_eq := htnum.trans h.tnum_eq
  length_eq := hlength.trans h.length_eq
  minTnum_eq := hmin.trans h.minTnum_eq

theorem getnext_inert (h : Inert n p) : Inert n p.getnext.fst := by
  unfold getnext
  split
  · exact h
  · exact h.of_same rfl rfl rfl

theorem addTask_inert (h : Inert n p) {task : Task τ} {ok : Bool}
    (hstep : p.addTask task = some (p', ok)) : Inert n p' := by
  unfold addTask at hstep
  split at hstep
  · cases hstep
    exact h
  · dsimp only at hstep
    have hnext : Inert n p.getnext.fst := getnext_inert h
    split at hstep
    · cases hstep
      exact hnext
    · rcases Option.map_eq_some_iff.mp hstep with ⟨r, _, hp'⟩
      cases hp'
      exact hnext.of_same rfl List.length_set rfl

theorem adjust_inert (h : Inert n p) (hstep : p.adjust moved = some p') :
    Inert n p' := by
  have hbounds : ¬ (p.minTnum < wrap32 p.tnum ∧
      wrap32 p.tnum < p.maxTnum) := by
    intro hno
    rw [h.minTnum_eq, h.tnum_eq] at hno
    exact Int.lt_irrefl _ hno.left
  simp only [adjust, if_neg hbounds, Option.map_some, Option.some.injEq]
    at hstep
  rw [<- hstep]
  split
  · exact h.of_same rfl rfl rfl
  · exact h

theorem mentorStep_inert (h : Inert n p)
    (hstep : p.mentorStep moved = some p') : Inert n p' := by
  unfold mentorStep at hstep
  split at hstep
  · cases hstep
  · cases hstep
    exact h.of_same rfl rfl rfl
  · split at hstep
    · cases hstep
      exact h.of_same rfl rfl rfl
    · rcases Option.map_eq_some_iff.mp hstep with ⟨m, hm, hp'⟩
      rw [<- hp']
      exact (adjust_inert h hm).of_same rfl rfl rfl

theorem step_inert (h : Inert n p) {a : Action τ}
    (hstep : step moved p a = some p') : Inert n p' := by
  cases a with
  | work buffers =>
      simp only [step] at hstep
      split at hstep
      · rename_i hlength
        cases hstep
        refine h.of_same rfl ?_ rfl
        rw [List.length_zipWith, hlength, Nat.min_self]
      · cases hstep
  | addTask task =>
      rcases Option.map_eq_some_iff.mp hstep with ⟨r, hr, hp'⟩
      rw [<- hp']
      exact addTask_inert h hr
  | mentor => exact mentorStep_inert h hstep
  | tShutdown =>
      cases hstep
      exact h.of_same rfl rfl rfl

theorem not_resizes (moved : Task τ -> Task τ) (hardware buffsize : Nat)
    (hn : 0 < n) : ¬ Resizes moved hardware n buffsize := by
  intro h
  rcases h with ⟨acts, p, hrun, hne, _⟩
  have hpres : forall (p : Lfthreadpool τ) a p', Inert n p ->
      step moved p a = some p' -> Inert n p' := by
    intro p a p' h hstep
    exact step_inert h hstep
  have hinert : Inert n p :=
    StepFn.run_invariant hpres (new_inert hn) hrun
  exact hne hinert.length_eq

end Lfthreadpool

/--
For every number `n` of members, of which there are at least two, neither a pool
of loops made by `create_pool(n, timeout)` nor a pool of lock-free threads made
with `n` threads in dynamic mode ever changes the number of its members.
-/
theorem pools_never_resize {E : Type u} (fd : E -> Int) (mask : E -> Mask)
    (refused : E -> Bool) (base : Eventloop E) (timeout : Int)
    (wakeup : Nat -> E) {τ : Type u} (moved : Task τ -> Task τ)
    (hardware buffsize n : Nat) (hn : 2 <= n) :
    ¬ AdjustedPool.Resizes fd mask refused base n timeout wakeup ∧
      ¬ Lfthreadpool.Resizes moved hardware n buffsize :=
  ⟨AdjustedPool.not_resizes fd mask refused base n timeout wakeup,
    Lfthreadpool.not_resizes moved hardware buffsize
      (Nat.lt_of_lt_of_le Nat.zero_lt_two hn)⟩

theorem pools_never_resize_four :
    ¬ AdjustedPool.Resizes (fun e : Nat => (e : Int))
        (fun _ => EPOLLIN) (fun _ => false) (Eventloop.new 3) 4 (-1)
        (fun i => 4 + i) ∧
      ¬ Lfthreadpool.Resizes (fun _ : Task Nat => Task.empty) 8 4 1024 :=
  pools_never_resize _ _ _ _ _ _ _ _ _ 4 (by decide)

/-- Two members, the smallest pools that could be resized. -/
theorem resizes_fails_two :
    ¬ (AdjustedPool.Resizes (fun e : Nat => (e : Int))
        (fun _ => EPOLLIN) (fun _ => false) (Eventloop.new 3) 2 (-1)
        (fun i => 4 + i) ∨
      Lfthreadpool.Resizes (fun _ : Task Nat => Task.empty) 8 2 1024) := by
  intro h
  rcases h with hloops | hthreads
  · exact AdjustedPool.not_resizes _ _ _ _ 2 (-1) _ hloops
  · exact Lfthreadpool.not_resizes _ 8 1024 (by decide) hthreads

end MoonNet
