import MoonNet.Looptpool.Model

/-!
# Adjusting the number of loops

A manager thread wakes up every `timesec_` seconds, compares the average load
with its thresholds and removes a loop or adds one.  Between its accesses the
loops go on to work and their loads become anything.
-/

namespace MoonNet

open Foundation

universe u

def ADJUST_TIMEOUT_SEC : Int := 5

/-- The average of `t` loads as a percentage, with the divisions of `int`. -/
def loadScale (loads : List Int) (t : Int) : Int :=
  let sum := loads.foldl (fun sum load => sum + load) 0
  if sum = 0 then 0 else ((sum.tdiv t).tdiv sum) * 100

/--
The thread in `adjust_task`: at the test of its loop, or asleep; `none` stands
for a thread that was not started or has returned.
-/
inductive AdjustTask where
  | test
  | asleep
deriving DecidableEq, Repr

structure AdjustedPool (E : Type u) where
  pool : Looptpool E
  manager : Option AdjustTask
  timeout : Int
  maxTnum : Int
  minTnum : Int
  coolsec : Int
  timesec : Int
  scaleMax : Int
  scaleMin : Int

namespace AdjustedPool

variable {E : Type u} (fd : E -> Int) (mask : E -> Mask) (refused : E -> Bool)

def new (base : Eventloop E) : AdjustedPool E where
  pool := { base := base, loadvec := [], tNum := 0, next := 0, dispath := false }
  manager := none
  timeout := -1
  maxTnum := 0
  minTnum := 0
  coolsec := 30
  timesec := 5
  scaleMax := 80
  scaleMin := 20

def settnum (s : AdjustedPool E) (n : Nat) : AdjustedPool E :=
  { s with
    pool := { s.pool with tNum := n }
    maxTnum := n * 2 - 1
    minTnum := n }

/-- The loop of a new `loopthread`; `wakeup` is the event it adds to itself. -/
def newLoop (wakeup : E) : Eventloop E :=
  (Eventloop.new (fd wakeup)).addEvent fd wakeup (mask wakeup) (refused wakeup)

/-- Loop `i` of the new ones has the wake-up event `wakeup i`. -/
def initPool (s : AdjustedPool E) (timeout : Int) (wakeup : Nat -> E) :
    AdjustedPool E :=
  { s with
    timeout := timeout
    pool := { s.pool with
      loadvec := s.pool.loadvec ++
        (List.range s.pool.tNum).map fun i =>
          newLoop fd mask refused (wakeup i) } }

def initAdjust (s : AdjustedPool E) : AdjustedPool E :=
  { s with manager := some AdjustTask.test }

def createPool (s : AdjustedPool E) (n : Nat) (timeout : Int)
    (wakeup : Nat -> E) : AdjustedPool E :=
  let s := { s with pool := { s.pool with dispath := true } }
  ((s.settnum n).initPool fd mask refused timeout wakeup).initAdjust

def addloop (s : AdjustedPool E) (wakeup : E) : AdjustedPool E :=
  { s with
    pool := { s.pool with
      loadvec := s.pool.loadvec ++ [newLoop fd mask refused wakeup]
      tNum := s.pool.tNum + 1 } }

def getscale (s : AdjustedPool E) : Int :=
  loadScale s.pool.loads s.pool.tNum

/-- The body of the loop in `adjust_task` after the second test. -/
def adjust (s : AdjustedPool E) (wakeup : E) : AdjustedPool E :=
  let s :=
    if s.minTnum < s.pool.tNum ∧ s.pool.tNum < s.maxTnum then
      let scale := s.getscale
      if scale < s.scaleMin then
        { s with
          pool := (s.pool.delloopDispatch fd mask refused).fst
          timesec := s.timesec + s.coolsec }
      else if s.scaleMax < scale then
        let s := s.addloop fd mask refused wakeup
        { s with timesec := s.timesec - s.coolsec }
      else s
    else s
  if s.timesec < ADJUST_TIMEOUT_SEC then
    { s with timesec := ADJUST_TIMEOUT_SEC }
  else s

/-- `adjust_task` up to its sleep, or from there on. -/
def managerStep (s : AdjustedPool E) (wakeup : E) : Option (AdjustedPool E) :=
  match s.manager with
  | none => none
  | some AdjustTask.test =>
      some { s with
        manager := if s.pool.dispath then some AdjustTask.asleep else none }
  | some AdjustTask.asleep =>
      if s.pool.dispath then
        some { s.adjust fd mask refused wakeup with
          manager := some AdjustTask.test }
      else some { s with manager := none }

inductive Action (E : Type u) where
  | work (loops : List (Eventloop E))
  | manager (wakeup : E)
  | stopAdjust

def step (s : AdjustedPool E) : Action E -> Option (AdjustedPool E)
  | Action.work loops =>
      if loops.length = s.pool.loadvec.length then
        some { s with pool := { s.pool with loadvec := loops } }
      else none
  | Action.manager wakeup => s.managerStep fd mask refused wakeup
  | Action.stopAdjust =>
      some { s with pool := { s.pool with dispath := false } }

/--
Some run of the manager, with loads as the loops make them, leaves a number of
loops that is not `n` and within the bounds.
-/
def Resizes (base : Eventloop E) (n : Nat) (timeout : Int)
    (wakeup : Nat -> E) : Prop :=
  exists acts s,
    StepFn.run (step fd mask refused)
        ((new base).createPool fd mask refused n timeout wakeup) acts =
      some s ∧ s.pool.loadvec.length ≠ n ∧
      s.minTnum <= s.pool.loadvec.length ∧
      (s.pool.loadvec.length : Int) <= s.maxTnum

/-!
## No number of loops is between the bounds
-/

/-- The pool has the `n` loops it was made with, and `n` is its least number. -/
structure Inert (n : Nat) (s : AdjustedPool E) : Prop where
  tNum_eq : s.pool.tNum = n
  length_eq : s.pool.loadvec.length = n
  minTnum_eq : s.minTnum = n

theorem createPool_inert (base : Eventloop E) (n : Nat) (timeout : Int)
    (wakeup : Nat -> E) :
    Inert n ((new base).createPool fd mask refused n timeout wakeup) where
  tNum_eq := rfl
  length_eq := by
    simp [createPool, initAdjust, initPool, settnum, new]
  minTnum_eq := rfl

variable {fd mask refused} {s s' : AdjustedPool E} {n : Nat}

theorem Inert.adjust (h : Inert n s) (wakeup : E) :
    Inert n (s.adjust fd mask refused wakeup) := by
  have hbounds : ¬ (s.minTnum < s.pool.tNum ∧ s.pool.tNum < s.maxTnum) := by
    intro hno
    rw [h.minTnum_eq, h.tNum_eq] at hno
    exact Int.lt_irrefl _ hno.left
  simp only [AdjustedPool.adjust, if_neg hbounds]
  split
  · exact ⟨h.tNum_eq, h.length_eq, h.minTnum_eq⟩
  · exact h

theorem Inert.step (h : Inert n s) {a : Action E}
    (hstep : step fd mask refused s a = some s') : Inert n s' := by
  cases a with
  | work loops =>
      simp only [AdjustedPool.step] at hstep
      split at hstep
      · rename_i hlength
        cases hstep
        exact ⟨h.tNum_eq, hlength.trans h.length_eq, h.minTnum_eq⟩
      · cases hstep
  | manager wakeup =>
      simp only [AdjustedPool.step, managerStep] at hstep
      split at hstep
      · cases hstep
      · cases hstep
        exact ⟨h.tNum_eq, h.length_eq, h.minTnum_eq⟩
      · split at hstep
        · cases hstep
          have hnext : Inert n (s.adjust fd mask refused wakeup) :=
            h.adjust wakeup
          exact ⟨hnext.tNum_eq, hnext.length_eq, hnext.minTnum_eq⟩
        · cases hstep
          exact ⟨h.tNum_eq, h.length_eq, h.minTnum_eq⟩
  | stopAdjust =>
      cases hstep
      exact ⟨h.tNum_eq, h.length_eq, h.minTnum_eq⟩

variable (fd mask refused)

theorem not_resizes (base : Eventloop E) (n : Nat) (timeout : Int)
    (wakeup : Nat -> E) :
    ¬ Resizes fd mask refused base n timeout wakeup := by
  intro h
  rcases h with ⟨acts, s, hrun, hne, _⟩
  have hpres : forall (s : AdjustedPool E) a s', Inert n s ->
      step fd mask refused s a = some s' -> Inert n s' := by
    intro s a s' h hstep
    exact h.step hstep
  have hinert : Inert n s := StepFn.run_invariant hpres
    (createPool_inert fd mask refused base n timeout wakeup) hrun
  exact hne hinert.length_eq

end AdjustedPool

end MoonNet
