import MoonNet.Wrap.Readline

/-!
# The streams of `Readline`

A turn of the loop moves one byte of the read-ahead to the caller.  If the
read-ahead belongs to the descriptor of the call, no stream notices; otherwise
the descriptor gets a byte that its own stream does not have, and keeps it.
-/

namespace MoonNet

open Foundation
open Kernel

universe u

namespace Readline

variable {F : Type u} {s t m : Readline F} {fd : F} {c : UInt8}

def Inv (s : Readline F) : Prop :=
  0 < s.readCnt -> s.readCnt = s.ahead.length

theorem start_inv (stream : F -> List UInt8) : Inv (start stream) := by
  intro h
  cases h

theorem takeByte_eq (h : s.takeByte = some (m, c)) :
    s.ahead = c :: m.ahead ∧
      m = { s with readCnt := s.readCnt - 1, ahead := m.ahead } := by
  unfold takeByte at h
  split at h
  · cases h
  · rename_i x ahead hahead
    cases h
    exact ⟨hahead, rfl⟩

variable [DecidableEq F]

theorem takeByte_inv (h : Inv s) (hpos : 0 < s.readCnt)
    (htake : s.takeByte = some (m, c)) : Inv (m.store fd c) := by
  rcases takeByte_eq htake with ⟨hahead, hm⟩
  have hcount := h hpos
  rw [hahead, List.length_cons] at hcount
  have hcnt : m.readCnt = s.readCnt - 1 := by
    rw [hm]
  intro _
  show m.readCnt = m.ahead.length
  omega

/-!
# Bytes of the read-ahead
-/

theorem aheadOf_eq_nil (h : s.readCnt <= 0) (x : F) : s.aheadOf x = [] := by
  unfold aheadOf
  rw [if_neg]
  intro hpos
  omega

theorem aheadOf_takeByte (h : Inv s) (hpos : 0 < s.readCnt)
    (htake : s.takeByte = some (m, c)) (x : F) :
    s.aheadOf x = if s.owner = some x then c :: m.aheadOf x
      else m.aheadOf x := by
  rcases takeByte_eq htake with ⟨hahead, hm⟩
  have hcount := h hpos
  rw [hahead, List.length_cons] at hcount
  have howner : m.owner = s.owner := by
    rw [hm]
  have hcnt : m.readCnt = s.readCnt - 1 := by
    rw [hm]
  unfold aheadOf
  rw [howner, hcnt, hahead]
  by_cases hx : s.owner = some x
  · simp only [hx, hpos, and_self, and_true, if_true]
    congr 1
    split
    · rfl
    · apply List.eq_nil_of_length_eq_zero
      omega
  · simp [hx]

theorem store_aheadOf (x : F) : (s.store fd c).aheadOf x = s.aheadOf x :=
  rfl

theorem account_store (x : F) :
    (s.store fd c).account x =
      (if x = fd then s.returned x ++ [c] else s.returned x) ++
        s.aheadOf x ++ s.unread x := by
  unfold account
  rw [store_aheadOf]
  show Function.update s.returned fd (s.returned fd ++ [c]) x ++ _ ++ _ = _
  by_cases hx : x = fd
  · rw [hx, Function.update_self, if_pos rfl]
    rfl
  · rw [Function.update_of_ne hx, if_neg hx]
    rfl

theorem account_takeByte (htake : s.takeByte = some (m, c)) (x : F) :
    (m.store fd c).account x =
      (if x = fd then s.returned x ++ [c] else s.returned x) ++
        m.aheadOf x ++ s.unread x := by
  have hm := (takeByte_eq htake).right
  have hreturned : m.returned = s.returned := by
    rw [hm]
  have hunread : m.unread = s.unread := by
    rw [hm]
  rw [account_store, hreturned, hunread]

theorem account_ownByte (h : Inv s) (hpos : 0 < s.readCnt)
    (howner : s.owner = some fd) (htake : s.takeByte = some (m, c)) (x : F) :
    (m.store fd c).account x = s.account x := by
  have hahead := aheadOf_takeByte h hpos htake x
  rw [account_takeByte htake]
  unfold account
  rw [hahead, howner]
  by_cases hx : x = fd
  · rw [if_pos hx, if_pos (by rw [hx]), 
      List.append_cons (s.returned x) c (m.aheadOf x)]
  · rw [if_neg hx, if_neg (fun heq => hx (Option.some.inj heq).symm)]

theorem account_foreignByte (h : Inv s) (hpos : 0 < s.readCnt)
    (howner : s.owner ≠ some fd) (htake : s.takeByte = some (m, c)) :
    ((m.store fd c).account fd).length = (s.account fd).length + 1 := by
  have hahead := aheadOf_takeByte h hpos htake fd
  rw [if_neg howner] at hahead
  rw [account_takeByte htake, if_pos rfl]
  unfold account
  rw [hahead]
  simp only [List.length_append, List.length_cons, List.length_nil]
  omega

/-!
# Reading
-/

/-- What a successful `read` leaves. -/
def received (s : Readline F) (fd : F) (bytes : List UInt8) : Readline F :=
  { s with
    readCnt := bytes.length
    ahead := if bytes = [] then s.ahead else bytes
    owner := some fd
    unread := Function.update s.unread fd ((s.unread fd).drop bytes.length) }

theorem received_inv (bytes : List UInt8) : Inv (s.received fd bytes) := by
  intro hpos
  have hne : bytes ≠ [] := by
    intro hnil
    rw [hnil] at hpos
    cases hpos
  show (bytes.length : Int) = (if bytes = [] then s.ahead else bytes).length
  rw [if_neg hne]

theorem account_received {bytes : List UInt8} (hcnt : s.readCnt <= 0)
    (hbytes : bytes <+: s.unread fd) (x : F) :
    (s.received fd bytes).account x = s.account x := by
  have hahead : (s.received fd bytes).aheadOf x =
      if x = fd then bytes else [] := by
    unfold aheadOf received
    by_cases hx : x = fd
    · cases bytes with
      | nil => simp
      | cons b bytes => simp [hx]
    · rw [if_neg hx, if_neg]
      intro hno
      exact hx (Option.some.inj hno.right).symm
  unfold account
  rw [hahead, aheadOf_eq_nil hcnt, List.append_nil]
  show s.returned x ++ _ ++ Function.update s.unread fd
    ((s.unread fd).drop bytes.length) x = _
  by_cases hx : x = fd
  · rcases hbytes with ⟨rest, hrest⟩
    rw [hx, if_pos rfl, Function.update_self, <- hrest, List.drop_left,
      List.append_assoc]
  · rw [if_neg hx, Function.update_of_ne hx, List.append_nil]

theorem refill_spec {results rest : List ReadResult}
    (hcnt : s.readCnt <= 0) (h : refill fd s results = some (m, rest)) :
    Inv m ∧ (forall x, m.account x = s.account x) ∧
      m.stream = s.stream ∧ (0 < m.readCnt -> m.owner = some fd) := by
  induction results generalizing s with
  | nil =>
      cases h
  | cons r results ih =>
      cases r with
      | failed errno =>
          have hminus : { s with readCnt := -1 }.readCnt <= 0 :=
            Int.neg_nonpos_of_nonneg (by decide)
          have hfailed : forall x,
              { s with readCnt := -1 }.account x = s.account x := by
            intro x
            unfold account
            rw [aheadOf_eq_nil hcnt, aheadOf_eq_nil hminus]
          simp only [refill] at h
          split at h
          · rcases ih hminus h with ⟨hinv, haccount, hstream, howner⟩
            exact ⟨hinv, fun x => (haccount x).trans (hfailed x), hstream,
              howner⟩
          · cases h
            exact ⟨nofun, hfailed, rfl, nofun⟩
      | received bytes =>
          simp only [refill] at h
          split at h
          · rename_i hbytes
            cases h
            exact ⟨received_inv bytes,
              account_received hcnt hbytes.right, rfl, fun _ => rfl⟩
          · cases h

/--
`my_read` takes a byte from the read-ahead in a state `t`, in which nothing but
a refill has happened, or finds none.
-/
theorem myRead_cases {results rest : List ReadResult} {rc : Rc}
    (hinv : Inv s) (h : myRead fd s results = some (m, rest, rc)) :
    exists t, Inv t ∧ (forall x, t.account x = s.account x) ∧
      t.stream = s.stream ∧
      (t = s ∨ (s.readCnt <= 0 ∧ (0 < t.readCnt -> t.owner = some fd))) ∧
      ((m = t ∧ s.readCnt <= 0 ∧ t.readCnt <= 0 ∧
          (rc = Rc.zero ∨ rc = Rc.minusOne)) ∨
        exists c, rc = Rc.one c ∧ 0 < t.readCnt ∧
          t.takeByte = some (m, c)) := by
  unfold myRead at h
  split at h
  · rename_i hcnt
    rcases Option.bind_eq_some_iff.mp h with ⟨⟨t, rest'⟩, hrefill, hread⟩
    rcases refill_spec hcnt hrefill with ⟨htinv, haccount, hstream, howner⟩
    refine ⟨t, htinv, haccount, hstream, Or.inr ⟨hcnt, howner⟩, ?_⟩
    dsimp only at hread
    split at hread
    · rename_i hneg
      cases hread
      exact Or.inl ⟨rfl, hcnt, Int.le_of_lt hneg, Or.inr rfl⟩
    · split at hread
      · rename_i hzero
        cases hread
        exact Or.inl ⟨rfl, hcnt, Int.le_of_eq hzero, Or.inl rfl⟩
      · rename_i hnonneg hne
        rcases Option.map_eq_some_iff.mp hread with ⟨⟨m', c⟩, htake, hm⟩
        cases hm
        exact Or.inr ⟨c, rfl, by omega, htake⟩
  · rename_i hpos
    rcases Option.map_eq_some_iff.mp h with ⟨⟨m', c⟩, htake, hm⟩
    cases hm
    exact ⟨s, hinv, fun _ => rfl, rfl, Or.inl rfl,
      Or.inr ⟨c, rfl, Int.lt_of_not_ge hpos, htake⟩⟩

/-!
# The loop
-/

/-- Nothing is read ahead, or bytes of this descriptor. -/
def Own (s : Readline F) (fd : F) : Prop :=
  0 < s.readCnt -> s.owner = some fd

theorem takeByte_own (h : Own s fd) (hpos : 0 < s.readCnt)
    (htake : s.takeByte = some (m, c)) : Own (m.store fd c) fd := by
  have howner : m.owner = s.owner := by
    rw [(takeByte_eq htake).right]
  intro _
  exact howner.trans (h hpos)

theorem readlineLoop_own {count : Nat} {n r : Int}
    {results rest : List ReadResult} (hinv : Inv s) (hown : Own s fd)
    (h : readlineLoop fd count n s results = some (m, rest, r)) (x : F) :
    m.account x = s.account x := by
  induction count generalizing s n results with
  | zero =>
      cases h
      rfl
  | succ count ih =>
      rcases Option.bind_eq_some_iff.mp h with ⟨⟨m', rest', rc⟩, hread, hgo⟩
      rcases myRead_cases hinv hread with
        ⟨t, htinv, haccount, _, hsame, hdone | ⟨c, hrc, hpos, htake⟩⟩
      · rcases hdone with ⟨hm, _, _, hzero | hminus⟩
        · subst hm hzero
          cases hgo
          exact haccount x
        · subst hm hminus
          cases hgo
          exact haccount x
      · have htown : Own t fd := by
          rcases hsame with heq | hrefilled
          · rw [heq]
            exact hown
          · exact hrefilled.right
        have hmoved : (m'.store fd c).account x = s.account x :=
          (account_ownByte htinv hpos (htown hpos) htake x).trans (haccount x)
        subst hrc
        dsimp only at hgo
        split at hgo
        · cases hgo
          exact hmoved
        · exact (ih (takeByte_inv htinv hpos htake)
            (takeByte_own htown hpos htake) hgo).trans hmoved

theorem readlineLoop_spec {count : Nat} {n r : Int}
    {results rest : List ReadResult} (hinv : Inv s)
    (h : readlineLoop fd count n s results = some (m, rest, r)) :
    Inv m ∧ m.stream = s.stream ∧
      (s.account fd).length <= (m.account fd).length := by
  induction count generalizing s n results with
  | zero =>
      cases h
      exact ⟨hinv, rfl, Nat.le_refl _⟩
  | succ count ih =>
      rcases Option.bind_eq_some_iff.mp h with ⟨⟨m', rest', rc⟩, hread, hgo⟩
      rcases myRead_cases hinv hread with
        ⟨t, htinv, haccount, hstream, _, hdone | ⟨c, hrc, hpos, htake⟩⟩
      · have hlength := Nat.le_of_eq (congrArg List.length (haccount fd).symm)
        rcases hdone with ⟨hm, _, _, hzero | hminus⟩
        · subst hm hzero
          cases hgo
          exact ⟨htinv, hstream, hlength⟩
        · subst hm hminus
          cases hgo
          exact ⟨htinv, hstream, hlength⟩
      · have hmoved : (s.account fd).length <=
            ((m'.store fd c).account fd).length := by
          rw [<- haccount fd]
          by_cases howner : t.owner = some fd
          · exact Nat.le_of_eq (congrArg List.length
              (account_ownByte htinv hpos howner htake fd).symm)
          · rw [account_foreignByte htinv hpos howner htake]
            exact Nat.le_succ _
        have hminv : Inv (m'.store fd c) := takeByte_inv htinv hpos htake
        have hmstream : (m'.store fd c).stream = s.stream := by
          rw [<- hstream]
          show m'.stream = t.stream
          rw [(takeByte_eq htake).right]
        subst hrc
        dsimp only at hgo
        split at hgo
        · cases hgo
          exact ⟨hminv, hmstream, hmoved⟩
        · rcases ih hminv hgo with ⟨hinv', hstream', hlength⟩
          exact ⟨hinv', hstream'.trans hmstream,
            Nat.le_trans hmoved hlength⟩

theorem readlineLoop_foreign {count : Nat} {n r : Int}
    {results rest : List ReadResult} (hinv : Inv s) (hpos : 0 < s.readCnt)
    (howner : s.owner ≠ some fd)
    (h : readlineLoop fd (count + 1) n s results = some (m, rest, r)) :
    (s.account fd).length < (m.account fd).length := by
  rcases Option.bind_eq_some_iff.mp h with ⟨⟨m', rest', rc⟩, hread, hgo⟩
  rcases myRead_cases hinv hread with
    ⟨t, htinv, haccount, _, hsame, hdone | ⟨c, hrc, _, htake⟩⟩
  · exact absurd hpos (Int.not_lt.mpr hdone.right.left)
  · have ht : t = s := by
      rcases hsame with heq | hrefilled
      · exact heq
      · exact absurd hpos (Int.not_lt.mpr hrefilled.left)
    subst ht
    have hmoved : ((m'.store fd c).account fd).length =
        (t.account fd).length + 1 :=
      account_foreignByte hinv hpos howner htake
    have hminv : Inv (m'.store fd c) := takeByte_inv hinv hpos htake
    subst hrc
    dsimp only at hgo
    split at hgo
    · cases hgo
      omega
    · have hlength := (readlineLoop_spec hminv hgo).right.right
      omega

/-!
# Runs of calls
-/

theorem step_eq {call : Call F} (h : step s call = some m) :
    exists r, readlineLoop call.fd (call.maxlen - 1) 1 s call.results =
      some (m, [], r) := by
  unfold step readline at h
  split at h
  · rename_i m' r hloop
    cases h
    exact ⟨r, hloop⟩
  · cases h

theorem step_inv (hinv : Inv s) {call : Call F} (h : step s call = some m) :
    Inv m := by
  rcases step_eq h with ⟨r, hloop⟩
  exact (readlineLoop_spec hinv hloop).left

theorem step_apart_iff (hinv : Inv s) (hapart : Apart s) {call : Call F}
    (h : step s call = some m) : Apart m <-> s.OwnAhead call := by
  rcases step_eq h with ⟨r, hloop⟩
  have hstream : m.stream = s.stream :=
    (readlineLoop_spec hinv hloop).right.left
  constructor
  · intro hafter hmaxlen hpos
    by_contra howner
    rw [show call.maxlen - 1 = call.maxlen - 2 + 1 by omega] at hloop
    have hlength := readlineLoop_foreign hinv hpos howner hloop
    rw [hafter call.fd, hapart call.fd, hstream] at hlength
    exact Nat.lt_irrefl _ hlength
  · intro hown x
    rw [hstream, <- hapart x]
    by_cases hmaxlen : 1 < call.maxlen
    · exact readlineLoop_own hinv (hown hmaxlen) hloop x
    · rw [show call.maxlen - 1 = 0 by omega] at hloop
      simp only [readlineLoop, Option.some.injEq, Prod.mk.injEq] at hloop
      rw [hloop.left]

theorem start_apart (stream : F -> List UInt8) : Apart (start stream) := by
  intro fd
  unfold account
  rw [aheadOf_eq_nil (Int.le_refl 0)]
  rfl

/--
In a run of calls on any descriptors, the streams stay apart exactly if every
call that reads finds nothing read ahead, or bytes of its own stream; then what
was returned for a descriptor is a prefix of its stream.
-/
theorem apart_iff_ownAhead (stream : F -> List UInt8) (calls : List (Call F))
    (s : Readline F) (hrun : StepFn.run step (start stream) calls = some s) :
    (StepFn.Throughout step Apart (start stream) calls <->
      StepFn.Meets step OwnAhead (start stream) calls) ∧
    (StepFn.Meets step OwnAhead (start stream) calls ->
      forall fd, s.returned fd <+: s.stream fd) := by
  have hkeep : forall (s : Readline F) call s', Inv s ->
      step s call = some s' -> Inv s' := by
    intro s call s' h hstep
    exact step_inv h hstep
  have hiff : forall (s : Readline F) call s', Apart s -> Inv s ->
      step s call = some s' -> (Apart s' <-> s.OwnAhead call) := by
    intro s call s' h hinv hstep
    exact step_apart_iff hinv h hstep
  have hthroughout : StepFn.Throughout step Apart (start stream) calls <->
      StepFn.Meets step OwnAhead (start stream) calls :=
    StepFn.throughout_iff_meets hiff (start_apart stream)
      (StepFn.meets_of_invariant hkeep (start_inv stream) calls) hrun
  refine ⟨hthroughout, ?_⟩
  intro hmeets
  exact (StepFn.throughout_last (hthroughout.mpr hmeets)
    hrun).returned_of_stream

/-- Two lines arrive with one `read`, and the same descriptor gets both. -/
theorem apart_iff_ownAhead_twoLines :
    exists s : Readline Bool,
      StepFn.run step (start fun fd => if fd then [65, 10, 66, 10] else [])
          [⟨true, 80, [ReadResult.received [65, 10, 66, 10]]⟩,
            ⟨true, 80, []⟩] = some s ∧
        s.returned true = [65, 10, 66, 10] ∧
        forall fd, s.returned fd <+: s.stream fd := by
  have hreached : exists s : Readline Bool,
      StepFn.run step (start fun fd => if fd then [65, 10, 66, 10] else [])
          [⟨true, 80, [ReadResult.received [65, 10, 66, 10]]⟩,
            ⟨true, 80, []⟩] = some s ∧
        s.returned true = [65, 10, 66, 10] :=
    ⟨_, rfl, rfl⟩
  rcases hreached with ⟨s, hrun, hreturned⟩
  refine ⟨s, hrun, hreturned, ?_⟩
  refine (apart_iff_ownAhead _ _ s hrun).right ?_
  exact ⟨fun _ hno => absurd hno (by decide), fun _ _ => rfl, trivial⟩

/-- A line that was read ahead of one descriptor is returned for the other. -/
theorem apart_fails_twoDescriptors :
    exists s : Readline Bool,
      StepFn.run step
          (start fun fd => if fd then [65, 10, 66, 10] else [67, 10])
          [⟨true, 80, [ReadResult.received [65, 10, 66, 10]]⟩,
            ⟨false, 80, []⟩,
            ⟨true, 80, [ReadResult.received []]⟩] = some s ∧
        s.returned true = [65, 10] ∧ s.unread true = [] ∧
        s.returned false = [66, 10] ∧ s.stream false = [67, 10] ∧
        ¬ s.returned false <+: s.stream false := by
  refine ⟨_, rfl, rfl, rfl, rfl, rfl, ?_⟩
  show ¬ [66, 10] <+: [67, 10]
  decide

end Readline

end MoonNet
