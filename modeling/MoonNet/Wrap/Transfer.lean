import MoonNet.Foundation.Transfer
import MoonNet.Kernel.SizeT
import MoonNet.Wrap.Line

/-!
# `Readn` and `Writen`

Both functions make calls until `n` bytes are transferred.  What the calls
return is an endless sequence, one result for each call; an answer of the kernel
fits the call that it answers, that is, it transfers at most the `nleft` bytes
that were asked for.  Pointers are offsets from `vptr`.
-/

namespace MoonNet

open Foundation
open Kernel

def bytesFrom (mem : Nat -> UInt8) (ptr count : Nat) : List UInt8 :=
  (List.range count).map fun i => mem (ptr + i)

/-!
## `Readn`
-/

/--
The local variables of `Readn` and the memory from `vptr` on; `ret` is what is
returned, once it is.  Of the descriptor: `unread` is what the kernel has not
given out, and `calls` counts the calls of `read`.
-/
structure Readn where
  nleft : Nat
  ptr : Nat
  mem : Nat -> UInt8
  unread : List UInt8
  calls : Nat
  ret : Option Int

namespace Readn

def start (n : Nat) (mem : Nat -> UInt8) (stream : List UInt8) : Readn where
  nleft := n
  ptr := 0
  mem := mem
  unread := stream
  calls := 0
  ret := none

/-- `read(fd, ptr, nleft)` has stored `bytes`. -/
def receive (s : Readn) (bytes : List UInt8) : Readn :=
  { s with
    mem := Readline.written s.mem s.ptr bytes
    unread := s.unread.drop bytes.length
    calls := s.calls + 1 }

/-- `nleft -= nread; ptr += nread;` -/
def advance (s : Readn) (nread : Int) : Readn :=
  { s with
    nleft := SizeT.sub s.nleft (SizeT.ofSsize nread)
    ptr := (s.ptr + nread).toNat }

/-- `return n - nleft;` -/
def finish (s : Readn) (n : Nat) : Readn :=
  { s with ret := some (SizeT.toSsize (SizeT.sub n s.nleft)) }

def round (n : Nat) (results : Nat -> ReadResult) (s : Readn) : Round Readn :=
  if 0 < s.nleft then
    match results s.calls with
    | ReadResult.failed errno =>
        if errno = Errno.eintr then Round.again ((s.receive []).advance 0)
        else Round.leave { s.receive [] with ret := some (-1) }
    | ReadResult.received bytes =>
        if bytes = [] then Round.leave ((s.receive []).finish n)
        else Round.again ((s.receive bytes).advance bytes.length)
  else Round.leave (s.finish n)

/--
What `read` can answer to a call for `nleft` bytes: some of the unread bytes,
nothing at their end only, or an error.
-/
def Answers (s : Readn) : ReadResult -> Prop
  | ReadResult.failed _ => True
  | ReadResult.received bytes =>
      bytes.length <= s.nleft ∧ bytes <+: s.unread ∧
        (bytes = [] -> s.unread = [])

instance (s : Readn) (r : ReadResult) : Decidable (s.Answers r) :=
  match r with
  | ReadResult.failed _ => inferInstanceAs (Decidable True)
  | ReadResult.received _ => inferInstanceAs (Decidable (_ ∧ _ ∧ _))

def outcome : ReadResult -> Outcome
  | ReadResult.failed errno =>
      if errno = Errno.eintr then Outcome.retries else Outcome.stops
  | ReadResult.received bytes =>
      if bytes = [] then Outcome.stops else Outcome.moves bytes.length

def outcomes (results : Nat -> ReadResult) (i : Nat) : Outcome :=
  outcome (results i)

/--
An error other than `EINTR` before there are `n` bytes and before the end of the
file is reported.
-/
def Fails (n : Nat) (results : Nat -> ReadResult) : Prop :=
  exists i errno, Made (outcomes results) n i ∧
    results i = ReadResult.failed errno ∧ errno ≠ Errno.eintr

/-- What `Readn` leaves and returns. -/
structure Transfers (n : Nat) (stream : List UInt8)
    (results : Nat -> ReadResult) (t : Readn) : Prop where
  fails_iff : t.ret = some (-1) <-> Fails n results
  returned : ¬ Fails n results ->
    t.ret = some ((min n stream.length : Nat) : Int)
  stored : ¬ Fails n results ->
    bytesFrom t.mem 0 (min n stream.length) =
      stream.take (min n stream.length)

end Readn

/-!
## `Writen`
-/

/--
The local variables of `Writen`; `accepted` is what the kernel has taken, in
order, and `calls` counts the calls of `write`.
-/
structure Writen where
  nleft : Nat
  ptr : Nat
  accepted : List UInt8
  calls : Nat
  ret : Option Int
deriving DecidableEq, Repr

namespace Writen

def start (n : Nat) : Writen where
  nleft := n
  ptr := 0
  accepted := []
  calls := 0
  ret := none

/-- `write(fd, ptr, nleft)` has taken `count` bytes. -/
def handOver (s : Writen) (mem : Nat -> UInt8) (count : Nat) : Writen :=
  { s with
    accepted := s.accepted ++ bytesFrom mem s.ptr count
    calls := s.calls + 1 }

/-- `nleft -= nwritten; ptr += nwritten;` -/
def advance (s : Writen) (nwritten : Int) : Writen :=
  { s with
    nleft := SizeT.sub s.nleft (SizeT.ofSsize nwritten)
    ptr := (s.ptr + nwritten).toNat }

def round (mem : Nat -> UInt8) (n : Nat) (results : Nat -> WriteResult)
    (s : Writen) : Round Writen :=
  if 0 < s.nleft then
    match results s.calls with
    | WriteResult.failed errno =>
        if errno = Errno.eintr then
          Round.again ((s.handOver mem 0).advance 0)
        else Round.leave { s.handOver mem 0 with ret := some (-1) }
    | WriteResult.accepted count =>
        if count = 0 then
          Round.leave { s.handOver mem 0 with ret := some (-1) }
        else Round.again ((s.handOver mem count).advance count)
  else Round.leave { s with ret := some (SizeT.toSsize n) }

/-- What `write` can answer to a call with `nleft` bytes. -/
def Answers (s : Writen) : WriteResult -> Prop
  | WriteResult.failed _ => True
  | WriteResult.accepted count => count <= s.nleft

instance (s : Writen) (r : WriteResult) : Decidable (s.Answers r) :=
  match r with
  | WriteResult.failed _ => inferInstanceAs (Decidable True)
  | WriteResult.accepted _ => inferInstanceAs (Decidable (_ <= _))

def outcome : WriteResult -> Outcome
  | WriteResult.failed errno =>
      if errno = Errno.eintr then Outcome.retries else Outcome.stops
  | WriteResult.accepted count =>
      if count = 0 then Outcome.stops else Outcome.moves count

def outcomes (results : Nat -> WriteResult) (i : Nat) : Outcome :=
  outcome (results i)

def Refuses (r : WriteResult) : Prop :=
  r = WriteResult.accepted 0 ∨
    exists errno, r = WriteResult.failed errno ∧ errno ≠ Errno.eintr

/-- What `Writen` hands over and returns. -/
structure Transfers (n : Nat) (mem : Nat -> UInt8)
    (results : Nat -> WriteResult) (t : Writen) : Prop where
  returned_iff : t.ret = some (n : Int) <-> t.accepted = bytesFrom mem 0 n
  refused : t.ret ≠ some (n : Int) ->
    t.ret = some (-1) ∧
      exists i, t.calls = i + 1 ∧ Refuses (results i) ∧
        forall j, j < i -> ¬ Refuses (results j)
  handed_over : t.accepted <+: bytesFrom mem 0 n

end Writen

/-!
# Memory
-/

theorem bytesFrom_length (mem : Nat -> UInt8) (ptr count : Nat) :
    (bytesFrom mem ptr count).length = count := by
  simp [bytesFrom]

theorem bytesFrom_add (mem : Nat -> UInt8) (ptr m n : Nat) :
    bytesFrom mem ptr (m + n) =
      bytesFrom mem ptr m ++ bytesFrom mem (ptr + m) n := by
  simp [bytesFrom, List.range_add, Function.comp_def, Nat.add_assoc]

theorem written_append (mem : Nat -> UInt8) (ptr : Nat) (xs ys : List UInt8) :
    Readline.written mem ptr (xs ++ ys) =
      Readline.written (Readline.written mem ptr xs) (ptr + xs.length) ys := by
  induction xs generalizing mem ptr with
  | nil => rfl
  | cons x xs ih =>
      rw [List.cons_append, Readline.written, ih, List.length_cons,
        Nat.add_right_comm, Nat.add_assoc]
      rfl

theorem bytesFrom_written (mem : Nat -> UInt8) (ptr : Nat)
    (bytes : List UInt8) :
    bytesFrom (Readline.written mem ptr bytes) ptr bytes.length = bytes := by
  apply List.ext_getElem?
  intro i
  unfold bytesFrom
  by_cases hi : i < bytes.length
  · have hbyte := List.getElem?_eq_getElem hi
    rw [List.getElem?_map, List.getElem?_range hi, Option.map_some, hbyte,
      Readline.written_eq mem ptr bytes hbyte]
  · have hnone := Nat.le_of_not_lt hi
    rw [List.getElem?_eq_none (by simpa using hnone),
      List.getElem?_eq_none hnone]

namespace Readn

/-!
# The rounds of `Readn`
-/

variable {n : Nat} {mem : Nat -> UInt8} {stream : List UInt8}
  {results : Nat -> ReadResult} {i : Nat}

def bytesOf : ReadResult -> List UInt8
  | ReadResult.failed _ => []
  | ReadResult.received bytes => bytes

def delivered (results : Nat -> ReadResult) : Nat -> List UInt8
  | 0 => []
  | i + 1 => delivered results i ++ bytesOf (results i)

theorem bytesOf_length (r : ReadResult) :
    (bytesOf r).length = (outcome r).count := by
  cases r with
  | failed errno =>
      rw [outcome]
      split <;> rfl
  | received bytes =>
      rw [outcome]
      split
      · rename_i hnil
        rw [hnil]
        rfl
      · rfl

theorem delivered_length (results : Nat -> ReadResult) (i : Nat) :
    (delivered results i).length = moved (outcomes results) i := by
  induction i with
  | zero => rfl
  | succ i ih =>
      rw [delivered, List.length_append, ih, bytesOf_length]
      rfl

def after (n : Nat) (mem : Nat -> UInt8) (stream : List UInt8)
    (results : Nat -> ReadResult) (i : Nat) : Readn where
  nleft := n - moved (outcomes results) i
  ptr := moved (outcomes results) i
  mem := Readline.written mem 0 (delivered results i)
  unread := stream.drop (moved (outcomes results) i)
  calls := i
  ret := none

theorem round_again {s : Readn} (hleft : 0 < s.nleft)
    (hgo : outcome (results s.calls) ≠ Outcome.stops) :
    round n results s =
      Round.again ((s.receive (bytesOf (results s.calls))).advance
        (bytesOf (results s.calls)).length) := by
  unfold round
  rw [if_pos hleft]
  cases hr : results s.calls with
  | failed errno =>
      rw [hr, outcome] at hgo
      by_cases heintr : errno = Errno.eintr
      · exact if_pos heintr
      · exact absurd (if_neg heintr) hgo
  | received bytes =>
      rw [hr, outcome] at hgo
      by_cases hnil : bytes = []
      · exact absurd (if_pos hnil) hgo
      · exact if_neg hnil

theorem round_failed {s : Readn} {errno : Errno} (hleft : 0 < s.nleft)
    (hr : results s.calls = ReadResult.failed errno)
    (hne : errno ≠ Errno.eintr) :
    round n results s = Round.leave { s.receive [] with ret := some (-1) } := by
  unfold round
  rw [if_pos hleft, hr]
  exact if_neg hne

theorem round_eof {s : Readn} (hleft : 0 < s.nleft)
    (hr : results s.calls = ReadResult.received []) :
    round n results s = Round.leave ((s.receive []).finish n) := by
  unfold round
  rw [if_pos hleft, hr]
  exact if_pos rfl

theorem round_full {s : Readn} (hleft : s.nleft = 0) :
    round n results s = Round.leave (s.finish n) := by
  unfold round
  rw [hleft, if_neg (Nat.lt_irrefl 0)]

theorem after_succ (hn : n <= SSIZE_MAX)
    (hfits : (bytesOf (results i)).length <= n - moved (outcomes results) i) :
    ((after n mem stream results i).receive (bytesOf (results i))).advance
        (bytesOf (results i)).length =
      after n mem stream results (i + 1) := by
  have hmoved : moved (outcomes results) (i + 1) =
      moved (outcomes results) i + (bytesOf (results i)).length := by
    rw [moved, bytesOf_length]
    rfl
  unfold advance receive after
  rw [Readn.mk.injEq]
  refine ⟨?_, ?_, ?_, ?_, rfl, rfl⟩
  · rw [SizeT.sub_ofSsize hfits (Nat.le_trans (Nat.sub_le n _) hn), hmoved,
      Nat.sub_add_eq]
  · rw [hmoved]
    exact Int.toNat_natCast _
  · rw [delivered, written_append, delivered_length, Nat.zero_add]
  · rw [List.drop_drop, hmoved]

theorem pos_of_moves {r : ReadResult} {count : Nat}
    (h : outcome r = Outcome.moves count) : 0 < count := by
  cases r with
  | failed errno =>
      rw [outcome] at h
      split at h <;> cases h
  | received bytes =>
      rw [outcome] at h
      split at h
      · cases h
      · rename_i hne
        cases h
        exact List.length_pos_of_ne_nil hne

theorem bytesOf_le {s : Readn} {r : ReadResult} (h : s.Answers r) :
    (bytesOf r).length <= s.nleft := by
  cases r with
  | failed errno => exact Nat.zero_le _
  | received bytes => exact h.left

theorem bytesOf_prefix {s : Readn} {r : ReadResult} (h : s.Answers r) :
    bytesOf r <+: s.unread := by
  cases r with
  | failed errno => exact List.nil_prefix
  | received bytes => exact h.right.left

/-- The kernel answers every call that is made. -/
def Answered (n : Nat) (mem : Nat -> UInt8) (stream : List UInt8)
    (results : Nat -> ReadResult) : Prop :=
  forall s, Visited (round n results) (start n mem stream) s -> 0 < s.nleft ->
    s.Answers (results s.calls)

theorem answers_after (h : Answered n mem stream results)
    (hvisited : Visited (round n results) (after n mem stream results 0)
      (after n mem stream results i))
    (hmade : Made (outcomes results) n i) :
    (after n mem stream results i).Answers (results i) :=
  h _ hvisited (Nat.sub_pos_of_lt hmade.right)

theorem round_after (hn : n <= SSIZE_MAX) (h : Answered n mem stream results)
    (i : Nat)
    (hvisited : Visited (round n results) (after n mem stream results 0)
      (after n mem stream results i))
    (hmade : Made (outcomes results) n i)
    (hgo : outcomes results i ≠ Outcome.stops) :
    round n results (after n mem stream results i) =
      Round.again (after n mem stream results (i + 1)) := by
  have hfits := bytesOf_le (answers_after h hvisited hmade)
  have hleft : 0 < (after n mem stream results i).nleft :=
    Nat.sub_pos_of_lt hmade.right
  exact (round_again hleft hgo).trans
    (congrArg Round.again (after_succ hn hfits))

theorem answers_of_made (hn : n <= SSIZE_MAX)
    (h : Answered n mem stream results) (hmade : Made (outcomes results) n i) :
    (after n mem stream results i).Answers (results i) :=
  answers_after h (Visited.of_goesOn (round_after hn h) hmade.left) hmade

theorem partial_outcomes (hn : n <= SSIZE_MAX)
    (h : Answered n mem stream results) : Partial (outcomes results) n := by
  intro i hmade count hcall
  have hshort := hmade.right
  have hfits : (bytesOf (results i)).length <= n - moved (outcomes results) i :=
    bytesOf_le (answers_of_made hn h hmade)
  have hcount : (outcome (results i)).count = count :=
    congrArg Outcome.count hcall
  rw [bytesOf_length, hcount] at hfits
  exact ⟨pos_of_moves hcall, by omega⟩

theorem delivered_eq (hn : n <= SSIZE_MAX) (h : Answered n mem stream results)
    (hgoes : GoesOn (outcomes results) n i) :
    delivered results i = stream.take (moved (outcomes results) i) := by
  induction i with
  | zero => rfl
  | succ i ih =>
      rcases goesOn_succ.mp hgoes with ⟨hmade, _⟩
      have hfront : bytesOf (results i) <+:
          stream.drop (moved (outcomes results) i) :=
        bytesOf_prefix (answers_of_made hn h hmade)
      have hcount : (outcomes results i).count =
          (bytesOf (results i)).length :=
        (bytesOf_length (results i)).symm
      rw [delivered, moved, List.take_add, ih hmade.left, hcount,
        <- List.prefix_iff_eq_take.mp hfront]

theorem finish_after (hn : n <= SSIZE_MAX) {s : Readn} {k : Nat} (hk : k <= n)
    (hleft : s.nleft = n - k) : (s.finish n).ret = some (k : Int) := by
  have hmax : k <= SSIZE_MAX := Nat.le_trans hk hn
  have hsub : SizeT.sub n (n - k) = n - (n - k) := by
    apply SizeT.sub_eq (Nat.sub_le n k)
    rw [Nat.sub_sub_self hk]
    exact SizeT.lt_of_le_max hmax
  unfold finish
  rw [hleft, hsub, Nat.sub_sub_self hk, SizeT.toSsize_eq hmax]

theorem bytesFrom_delivered :
    bytesFrom (Readline.written mem 0 (delivered results i)) 0
      (moved (outcomes results) i) = delivered results i := by
  rw [<- delivered_length]
  exact bytesFrom_written mem 0 _

theorem Transfers.of_returned {k : Nat} {t : Readn}
    (hnever : ¬ Fails n results) (hk : k = min n stream.length)
    (hret : t.ret = some (k : Int))
    (hstored : bytesFrom t.mem 0 k = stream.take k) :
    Transfers n stream results t := by
  subst hk
  constructor
  case fails_iff =>
    constructor
    · intro hminus
      rw [hret, Option.some.injEq] at hminus
      omega
    · exact fun hfails => absurd hfails hnever
  case returned => exact fun _ => hret
  case stored => exact fun _ => hstored

theorem eintr_of_retries {r : ReadResult} (h : outcome r = Outcome.retries) :
    r = ReadResult.failed Errno.eintr := by
  cases r with
  | failed errno =>
      rw [outcome] at h
      split at h
      · rename_i heintr
        rw [heintr]
      · cases h
  | received bytes =>
      rw [outcome] at h
      split at h <;> cases h

theorem ends_of_error {errno : Errno} (hmade : Made (outcomes results) n i)
    (hr : results i = ReadResult.failed errno) (hne : errno ≠ Errno.eintr) :
    EndsAt (outcomes results) n i := by
  refine ⟨hmade.left, Or.inr ⟨hmade.right, ?_⟩⟩
  rw [outcomes, hr, outcome, if_neg hne]

theorem not_fails (hends : EndsAt (outcomes results) n i)
    (hno : Made (outcomes results) n i -> forall errno,
      results i ≠ ReadResult.failed errno) : ¬ Fails n results := by
  rintro ⟨j, errno, hmade, hr, hne⟩
  have hsame := hends.unique (ends_of_error hmade hr hne)
  subst hsame
  exact hno hmade errno hr

/-!
## How `Readn` ends
-/

theorem full_transfers (hn : n <= SSIZE_MAX)
    (h : Answered n mem stream results) (hends : EndsAt (outcomes results) n i)
    (hfull : moved (outcomes results) i = n) :
    exists t, round n results (after n mem stream results i) = Round.leave t ∧
      Transfers n stream results t := by
  have hzero : (after n mem stream results i).nleft = n - n :=
    congrArg (n - ·) hfull
  have hdelivered := delivered_eq hn h hends.left
  have hlength := congrArg List.length hdelivered
  rw [delivered_length, hfull, List.length_take] at hlength
  refine ⟨_, round_full (hzero.trans (Nat.sub_self n)), ?_⟩
  apply Transfers.of_returned (k := n) _ hlength
    (finish_after hn (Nat.le_refl n) hzero)
  · rw [<- hfull, <- hdelivered]
    exact bytesFrom_delivered
  · exact not_fails hends fun hmade => absurd hfull (Nat.ne_of_lt hmade.right)

theorem stopped_transfers (hn : n <= SSIZE_MAX)
    (h : Answered n mem stream results) (hends : EndsAt (outcomes results) n i)
    (hmade : Made (outcomes results) n i)
    (hstops : outcomes results i = Outcome.stops) :
    exists t, round n results (after n mem stream results i) = Round.leave t ∧
      Transfers n stream results t := by
  have hleft : 0 < (after n mem stream results i).nleft :=
    Nat.sub_pos_of_lt hmade.right
  have hanswer := answers_of_made hn h hmade
  unfold outcomes at hstops
  cases hr : results i with
  | failed errno =>
      have hne : errno ≠ Errno.eintr := by
        intro heintr
        rw [hr, outcome, if_pos heintr] at hstops
        cases hstops
      have hfails : Fails n results := ⟨i, errno, hmade, hr, hne⟩
      refine ⟨_, round_failed hleft hr hne, ?_⟩
      exact {
        fails_iff := ⟨fun _ => hfails, fun _ => rfl⟩
        returned := fun hno => absurd hfails hno
        stored := fun hno => absurd hfails hno }
  | received bytes =>
      have hnil : bytes = [] := by
        by_contra hne
        rw [hr, outcome, if_neg hne] at hstops
        cases hstops
      subst hnil
      rw [hr] at hanswer
      -- Nothing is read at the end of the stream only: all of it is delivered.
      have hend : stream.drop (moved (outcomes results) i) = [] :=
        hanswer.right.right rfl
      have hall : stream.length <= moved (outcomes results) i :=
        List.drop_eq_nil_iff.mp hend
      have hdelivered := delivered_eq hn h hends.left
      have hlength := congrArg List.length hdelivered
      rw [delivered_length, List.length_take] at hlength
      have hshort := hmade.right
      have hcount : moved (outcomes results) i = min n stream.length := by
        omega
      refine ⟨_, round_eof hleft hr, ?_⟩
      apply Transfers.of_returned _ hcount
        (finish_after hn (Nat.le_of_lt hshort) rfl)
      · rw [<- hdelivered]
        exact bytesFrom_delivered
      · apply not_fails hends
        intro _ errno hfailed
        rw [hr] at hfailed
        cases hfailed

theorem exists_transfers (hn : n <= SSIZE_MAX)
    (heintr : {i | results i = ReadResult.failed Errno.eintr}.Finite)
    (h : Answered n mem stream results) :
    exists t, LoopReturns (round n results) (start n mem stream) t ∧
      Transfers n stream results t := by
  have hretries : {i | outcomes results i = Outcome.retries}.Finite :=
    heintr.subset fun i hi => eintr_of_retries hi
  exact exists_returns_of_calls (round_after hn h) (partial_outcomes hn h)
    hretries (fun _ => full_transfers hn h) (fun _ => stopped_transfers hn h)

end Readn

namespace Writen

/-!
# The rounds of `Writen`
-/

variable {n : Nat} {mem : Nat -> UInt8} {results : Nat -> WriteResult} {i : Nat}

theorem stops_iff {r : WriteResult} :
    outcome r = Outcome.stops <-> Refuses r := by
  cases r with
  | failed errno =>
      rw [outcome]
      by_cases heintr : errno = Errno.eintr
      · rw [if_pos heintr]
        simp [Refuses, heintr]
      · rw [if_neg heintr]
        simp [Refuses, heintr]
  | accepted count =>
      rw [outcome]
      by_cases hzero : count = 0
      · rw [if_pos hzero]
        simp [Refuses, hzero]
      · rw [if_neg hzero]
        simp [Refuses, hzero]

theorem eintr_of_retries {r : WriteResult} (h : outcome r = Outcome.retries) :
    r = WriteResult.failed Errno.eintr := by
  cases r with
  | failed errno =>
      rw [outcome] at h
      split at h
      · rename_i heintr
        rw [heintr]
      · cases h
  | accepted count =>
      rw [outcome] at h
      split at h <;> cases h

theorem pos_of_moves {r : WriteResult} {count : Nat}
    (h : outcome r = Outcome.moves count) : 0 < count := by
  cases r with
  | failed errno =>
      rw [outcome] at h
      split at h <;> cases h
  | accepted taken =>
      rw [outcome] at h
      split at h
      · cases h
      · rename_i hne
        cases h
        exact Nat.pos_of_ne_zero hne

theorem count_le {s : Writen} {r : WriteResult} (h : s.Answers r) :
    (outcome r).count <= s.nleft := by
  cases r with
  | failed errno =>
      rw [outcome]
      split <;> exact Nat.zero_le _
  | accepted count =>
      rw [outcome]
      split
      · exact Nat.zero_le _
      · exact h

theorem round_again {s : Writen} (hleft : 0 < s.nleft)
    (hgo : outcome (results s.calls) ≠ Outcome.stops) :
    round mem n results s =
      Round.again ((s.handOver mem (outcome (results s.calls)).count).advance
        (outcome (results s.calls)).count) := by
  unfold round
  rw [if_pos hleft]
  cases hr : results s.calls with
  | failed errno =>
      rw [hr, outcome] at hgo
      by_cases heintr : errno = Errno.eintr
      · rw [outcome, if_pos heintr]
        exact if_pos heintr
      · exact absurd (if_neg heintr) hgo
  | accepted count =>
      rw [hr, outcome] at hgo
      by_cases hzero : count = 0
      · exact absurd (if_pos hzero) hgo
      · rw [outcome, if_neg hzero]
        exact if_neg hzero

theorem round_refused {s : Writen} (hleft : 0 < s.nleft)
    (hr : Refuses (results s.calls)) :
    round mem n results s =
      Round.leave { s.handOver mem 0 with ret := some (-1) } := by
  unfold round
  rw [if_pos hleft]
  rcases hr with hzero | ⟨errno, hfailed, hne⟩
  · rw [hzero]
    exact if_pos rfl
  · rw [hfailed]
    exact if_neg hne

theorem round_full {s : Writen} (hleft : s.nleft = 0) :
    round mem n results s =
      Round.leave { s with ret := some (SizeT.toSsize n) } := by
  unfold round
  rw [hleft, if_neg (Nat.lt_irrefl 0)]

def after (mem : Nat -> UInt8) (n : Nat) (results : Nat -> WriteResult)
    (i : Nat) : Writen where
  nleft := n - moved (outcomes results) i
  ptr := moved (outcomes results) i
  accepted := bytesFrom mem 0 (moved (outcomes results) i)
  calls := i
  ret := none

theorem after_succ (hn : n <= SSIZE_MAX)
    (hfits : (outcomes results i).count <= n - moved (outcomes results) i) :
    ((after mem n results i).handOver mem (outcomes results i).count).advance
        (outcomes results i).count =
      after mem n results (i + 1) := by
  unfold advance handOver after
  rw [Writen.mk.injEq]
  refine ⟨?_, ?_, ?_, rfl, rfl⟩
  · rw [SizeT.sub_ofSsize hfits (Nat.le_trans (Nat.sub_le n _) hn), moved,
      Nat.sub_add_eq]
  · exact Int.toNat_natCast _
  · rw [moved, bytesFrom_add, Nat.zero_add]

/-- The kernel answers every call that is made. -/
def Answered (n : Nat) (mem : Nat -> UInt8) (results : Nat -> WriteResult) :
    Prop :=
  forall s, Visited (round mem n results) (start n) s -> 0 < s.nleft ->
    s.Answers (results s.calls)

theorem count_after_le (h : Answered n mem results)
    (hvisited : Visited (round mem n results) (after mem n results 0)
      (after mem n results i))
    (hmade : Made (outcomes results) n i) :
    (outcomes results i).count <= n - moved (outcomes results) i :=
  count_le (h _ hvisited (Nat.sub_pos_of_lt hmade.right))

theorem round_after (hn : n <= SSIZE_MAX) (h : Answered n mem results) (i : Nat)
    (hvisited : Visited (round mem n results) (after mem n results 0)
      (after mem n results i))
    (hmade : Made (outcomes results) n i)
    (hgo : outcomes results i ≠ Outcome.stops) :
    round mem n results (after mem n results i) =
      Round.again (after mem n results (i + 1)) := by
  have hfits := count_after_le h hvisited hmade
  have hleft : 0 < (after mem n results i).nleft :=
    Nat.sub_pos_of_lt hmade.right
  exact (round_again hleft hgo).trans
    (congrArg Round.again (after_succ hn hfits))

theorem partial_outcomes (hn : n <= SSIZE_MAX) (h : Answered n mem results) :
    Partial (outcomes results) n := by
  intro i hmade count hcall
  have hshort := hmade.right
  have hfits := count_after_le h
    (Visited.of_goesOn (round_after hn h) hmade.left) hmade
  rw [hcall] at hfits
  have hcount : count <= n - moved (outcomes results) i := hfits
  exact ⟨pos_of_moves hcall, by omega⟩

/-!
## How `Writen` ends
-/

theorem full_transfers (hn : n <= SSIZE_MAX)
    (hfull : moved (outcomes results) i = n) :
    exists t, round mem n results (after mem n results i) = Round.leave t ∧
      Transfers n mem results t := by
  have hzero : (after mem n results i).nleft = 0 := by
    unfold after
    rw [hfull, Nat.sub_self]
  have haccepted : (after mem n results i).accepted = bytesFrom mem 0 n := by
    unfold after
    rw [hfull]
  have hret : some (SizeT.toSsize n) = some (n : Int) := by
    rw [SizeT.toSsize_eq hn]
  refine ⟨_, round_full hzero, ?_⟩
  exact {
    returned_iff := ⟨fun _ => haccepted, fun _ => hret⟩
    refused := fun hno => absurd hret hno
    handed_over := by
      show (after mem n results i).accepted <+: bytesFrom mem 0 n
      rw [haccepted] }

theorem stopped_transfers (hmade : Made (outcomes results) n i)
    (hstops : outcomes results i = Outcome.stops) :
    exists t, round mem n results (after mem n results i) = Round.leave t ∧
      Transfers n mem results t := by
  rcases hmade with ⟨hgoes, hshort⟩
  have hleft : 0 < (after mem n results i).nleft := Nat.sub_pos_of_lt hshort
  have hrefuses : Refuses (results i) := stops_iff.mp hstops
  have hsplit : bytesFrom mem 0 n =
      bytesFrom mem 0 (moved (outcomes results) i) ++
        bytesFrom mem (moved (outcomes results) i)
          (n - moved (outcomes results) i) := by
    have hadd := bytesFrom_add mem 0 (moved (outcomes results) i)
      (n - moved (outcomes results) i)
    rwa [Nat.add_sub_cancel' (Nat.le_of_lt hshort), Nat.zero_add] at hadd
  have haccepted : ((after mem n results i).handOver mem 0).accepted =
      bytesFrom mem 0 (moved (outcomes results) i) :=
    List.append_nil _
  refine ⟨_, round_refused hleft hrefuses, ?_⟩
  constructor
  case returned_iff =>
    constructor
    · intro hret
      have hminus : (-1 : Int) = n := Option.some.inj hret
      omega
    · intro hall
      have hlength := congrArg List.length (haccepted.symm.trans hall)
      rw [bytesFrom_length, bytesFrom_length] at hlength
      exact absurd hlength (Nat.ne_of_lt hshort)
  case refused =>
    intro _
    refine ⟨rfl, i, rfl, hrefuses, ?_⟩
    intro j hj hearlier
    exact (hgoes j hj).right (stops_iff.mpr hearlier)
  case handed_over =>
    show ((after mem n results i).handOver mem 0).accepted <+: _
    rw [haccepted, hsplit]
    exact List.prefix_append _ _

theorem exists_transfers (hn : n <= SSIZE_MAX)
    (heintr : {i | results i = WriteResult.failed Errno.eintr}.Finite)
    (h : Answered n mem results) :
    exists t, LoopReturns (round mem n results) (start n) t ∧
      Transfers n mem results t := by
  have hretries : {i | outcomes results i = Outcome.retries}.Finite :=
    heintr.subset fun i hi => eintr_of_retries hi
  exact exists_returns_of_calls (round_after hn h) (partial_outcomes hn h)
    hretries (fun _ _ => full_transfers hn) (fun _ _ => stopped_transfers)

end Writen

/-!
# Both functions
-/

/--
For every `n` up to the greatest `ssize_t` and whatever the kernel answers, with
finitely many `EINTR`, both functions return.  `Readn` has stored as much of the
stream as there is, up to `n` bytes, and returns its length, or -1 exactly if an
error comes before that; `Writen` returns `n` exactly if the kernel has all
bytes in order, and -1 at the first refusal otherwise.
-/
theorem transfer_exactly (n : Nat) (hn : n <= SSIZE_MAX) (mem : Nat -> UInt8) :
    (forall (stream : List UInt8) (results : Nat -> ReadResult),
      {i | results i = ReadResult.failed Errno.eintr}.Finite ->
      Readn.Answered n mem stream results ->
        exists t, LoopReturns (Readn.round n results)
            (Readn.start n mem stream) t ∧
          Readn.Transfers n stream results t) ∧
    forall results : Nat -> WriteResult,
      {i | results i = WriteResult.failed Errno.eintr}.Finite ->
      Writen.Answered n mem results ->
        exists t, LoopReturns (Writen.round mem n results)
            (Writen.start n) t ∧
          Writen.Transfers n mem results t := by
  constructor
  · intro stream results heintr hanswered
    exact Readn.exists_transfers hn heintr hanswered
  · intro results heintr hanswered
    exact Writen.exists_transfers hn heintr hanswered

def readResults : Nat -> ReadResult
  | 0 => ReadResult.failed Errno.eintr
  | 1 => ReadResult.received [65, 66]
  | _ => ReadResult.received [67]

def writeResults : Nat -> WriteResult
  | 0 => WriteResult.accepted 1
  | 1 => WriteResult.failed Errno.eintr
  | _ => WriteResult.accepted 2

/-- Three bytes of a longer stream are read, and three bytes are written. -/
theorem transfer_exactly_threeBytes :
    (exists t, LoopReturns (Readn.round 3 readResults)
        (Readn.start 3 (fun _ => 255) [65, 66, 67, 68]) t ∧
      Readn.Transfers 3 [65, 66, 67, 68] readResults t) ∧
    exists t, LoopReturns (Writen.round (fun _ => 255) 3 writeResults)
        (Writen.start 3) t ∧
      Writen.Transfers 3 (fun _ => 255) writeResults t := by
  have hboth := transfer_exactly 3 (by decide) fun _ => 255
  constructor
  · apply hboth.left
    · apply (Set.finite_singleton 0).subset
      intro i hi
      match i, hi with
      | 0, _ => rfl
      | 1, hi => cases hi
      | i + 2, hi => cases hi
    · intro s hvisited hleft
      rcases (visited_iff_of_again (by rfl)).mp hvisited with rfl | hvisited
      · trivial
      rcases (visited_iff_of_again (by rfl)).mp hvisited with rfl | hvisited
      · decide
      rcases (visited_iff_of_again (by rfl)).mp hvisited with rfl | hvisited
      · decide
      have hlast := (visited_iff_of_leave
        (Readn.round_full (by decide))).mp hvisited
      rw [hlast] at hleft
      exact absurd hleft (by decide)
  · apply hboth.right
    · apply (Set.finite_singleton 1).subset
      intro i hi
      match i, hi with
      | 0, hi => cases hi
      | 1, _ => rfl
      | i + 2, hi => cases hi
    · intro s hvisited hleft
      rcases (visited_iff_of_again (by rfl)).mp hvisited with rfl | hvisited
      · decide
      rcases (visited_iff_of_again (by rfl)).mp hvisited with rfl | hvisited
      · trivial
      rcases (visited_iff_of_again (by rfl)).mp hvisited with rfl | hvisited
      · decide
      have hlast := (visited_iff_of_leave
        (Writen.round_full (by decide))).mp hvisited
      rw [hlast] at hleft
      exact absurd hleft (by decide)

end MoonNet
