import MoonNet.Wrap.Streams

/-!
# What `Readline` stores and what it returns

The calls read one descriptor here, and the buffer of the caller is part of the
model.  A call stores the longest line that fits, with a NUL behind it.  The
counter of its loop starts at 1 and is one ahead of the stored bytes; a newline
and the end of the stream correct that, but a full buffer does not.
-/

namespace MoonNet

open Foundation
open Kernel

universe u

/-!
## Lines
-/

/-- At most `size` bytes, and no newline but at the end. -/
structure IsLine (size : Nat) (bytes : List UInt8) : Prop where
  length_le : bytes.length <= size
  newline_last : Readline.newline ∉ bytes.dropLast

structure LongestLine (size : Nat) (stream line : List UInt8) : Prop where
  isLine : IsLine size line
  isPrefix : line <+: stream
  longest : forall l, l <+: stream -> IsLine size l -> l <+: line

def lineOf : Nat -> List UInt8 -> List UInt8
  | 0, _ => []
  | _, [] => []
  | size + 1, c :: rest =>
      if c = Readline.newline then [c] else c :: lineOf size rest

theorem lineOf_prefix (size : Nat) (stream : List UInt8) :
    lineOf size stream <+: stream := by
  induction size generalizing stream with
  | zero => exact List.nil_prefix
  | succ size ih =>
      cases stream with
      | nil => exact List.nil_prefix
      | cons c rest =>
          rw [lineOf]
          split
          · exact List.prefix_append [c] rest
          · exact List.cons_prefix_cons.mpr ⟨rfl, ih rest⟩

theorem lineOf_isLine (size : Nat) (stream : List UInt8) :
    IsLine size (lineOf size stream) := by
  induction size generalizing stream with
  | zero => exact ⟨Nat.le_refl 0, by simp [lineOf]⟩
  | succ size ih =>
      cases stream with
      | nil => exact ⟨Nat.zero_le _, by simp [lineOf]⟩
      | cons c rest =>
          rw [lineOf]
          split
          · exact ⟨Nat.succ_le_succ (Nat.zero_le size), by simp⟩
          · rename_i hc
            have hrest := ih rest
            refine ⟨Nat.succ_le_succ hrest.length_le, ?_⟩
            cases hline : lineOf size rest with
            | nil => simp
            | cons d line =>
                rw [List.dropLast_cons_cons, <- hline]
                intro hmem
                rcases List.mem_cons.mp hmem with heq | hin
                · exact hc heq.symm
                · exact hrest.newline_last hin

theorem lineOf_longest {size : Nat} {stream l : List UInt8}
    (hfront : l <+: stream) (hline : IsLine size l) :
    l <+: lineOf size stream := by
  induction size generalizing stream l with
  | zero =>
      have hnil := List.eq_nil_of_length_eq_zero
        (Nat.le_zero.mp hline.length_le)
      rw [hnil]
      exact List.nil_prefix
  | succ size ih =>
      cases l with
      | nil => exact List.nil_prefix
      | cons c l =>
          cases stream with
          | nil => cases List.prefix_nil.mp hfront
          | cons d rest =>
              rcases List.cons_prefix_cons.mp hfront with ⟨heq, hrest⟩
              subst heq
              rw [lineOf]
              have hlen : l.length <= size :=
                Nat.le_of_succ_le_succ hline.length_le
              have hlast := hline.newline_last
              cases l with
              | nil =>
                  split
                  · exact List.prefix_refl [c]
                  · exact List.cons_prefix_cons.mpr ⟨rfl, List.nil_prefix⟩
              | cons e l =>
                  rw [List.dropLast_cons_cons, List.mem_cons, not_or] at hlast
                  rw [if_neg (Ne.symm hlast.left)]
                  exact List.cons_prefix_cons.mpr
                    ⟨rfl, ih hrest ⟨hlen, hlast.right⟩⟩

theorem lineOf_longestLine (size : Nat) (stream : List UInt8) :
    LongestLine size stream (lineOf size stream) where
  isLine := lineOf_isLine size stream
  isPrefix := lineOf_prefix size stream
  longest := fun _ hfront hline => lineOf_longest hfront hline

/--
A newline is among the first `size` bytes of a stream, or it has fewer bytes.
-/
def Ends (size : Nat) (stream : List UInt8) : Prop :=
  Readline.newline ∈ stream.take size ∨ stream.length < size

instance (size : Nat) (stream : List UInt8) : Decidable (Ends size stream) :=
  inferInstanceAs (Decidable (_ ∨ _))

theorem ends_cons {size : Nat} {c : UInt8} {rest : List UInt8} :
    Ends (size + 1) (c :: rest) <-> c = Readline.newline ∨ Ends size rest := by
  unfold Ends
  rw [List.take_succ_cons, List.mem_cons, List.length_cons,
    Nat.succ_lt_succ_iff, eq_comm, or_assoc]

namespace Readline

variable {F : Type u} [DecidableEq F]

/-!
## The buffer of the caller
-/

/--
`readlineLoop` with the caller's buffer `mem`: the next byte goes to `ptr`.
-/
def lineLoop (fd : F) : Nat -> Int -> (Nat -> UInt8) -> Nat -> Readline F ->
    List ReadResult ->
      Option (Readline F × List ReadResult × (Nat -> UInt8) × Int)
  | 0, n, mem, ptr, s, results =>
      some (s, results, Function.update mem ptr 0, n)
  | count + 1, n, mem, ptr, s, results =>
      (myRead fd s results).bind fun p =>
        match p with
        | (s, results, Rc.one c) =>
            let mem := Function.update mem ptr c
            if c = newline then
              some (s.store fd c, results, Function.update mem (ptr + 1) 0, n)
            else
              lineLoop fd count (n + 1) mem (ptr + 1) (s.store fd c) results
        | (s, results, Rc.zero) =>
            some (s, results, Function.update mem ptr 0, n - 1)
        | (s, results, Rc.minusOne) => some (s, results, mem, -1)

/-- `Readline(fd, vptr, maxlen)`; `mem` is the memory from `vptr` on. -/
def readLine (fd : F) (maxlen : Nat) (mem : Nat -> UInt8) (s : Readline F)
    (results : List ReadResult) :
    Option (Readline F × List ReadResult × (Nat -> UInt8) × Int) :=
  lineLoop fd (maxlen - 1) 1 mem 0 s results

theorem lineLoop_readlineLoop (fd : F) (count : Nat) (n : Int)
    (mem : Nat -> UInt8) (ptr : Nat) (s : Readline F)
    (results : List ReadResult) :
    (lineLoop fd count n mem ptr s results).map
        (fun r => (r.fst, r.snd.fst, r.snd.snd.snd)) =
      readlineLoop fd count n s results := by
  induction count generalizing n mem ptr s results with
  | zero => rfl
  | succ count ih =>
      rw [lineLoop, readlineLoop]
      cases myRead fd s results with
      | none => rfl
      | some p =>
          rcases p with ⟨m, rest, rc⟩
          rw [Option.bind_some, Option.bind_some]
          cases rc with
          | one c =>
              dsimp only
              split
              · rfl
              · exact ih _ _ _ _ _
          | zero => rfl
          | minusOne => rfl

def written (mem : Nat -> UInt8) (ptr : Nat) : List UInt8 -> Nat -> UInt8
  | [] => mem
  | c :: rest => written (Function.update mem ptr c) (ptr + 1) rest

theorem written_of_lt (mem : Nat -> UInt8) {ptr i : Nat} (hi : i < ptr)
    (bytes : List UInt8) : written mem ptr bytes i = mem i := by
  induction bytes generalizing mem ptr with
  | nil => rfl
  | cons c rest ih =>
      rw [written, ih _ (Nat.lt_succ_of_lt hi),
        Function.update_of_ne (Nat.ne_of_lt hi)]

theorem written_eq (mem : Nat -> UInt8) (ptr : Nat) (bytes : List UInt8)
    {i : Nat} {c : UInt8} (hc : bytes[i]? = some c) :
    written mem ptr bytes (ptr + i) = c := by
  induction bytes generalizing mem ptr i with
  | nil => cases hc
  | cons d rest ih =>
      cases i with
      | zero =>
          cases hc
          show written (Function.update mem ptr c) (ptr + 1) rest ptr = c
          rw [written_of_lt _ (Nat.lt_add_one ptr), Function.update_self]
      | succ i =>
          rw [written, show ptr + (i + 1) = ptr + 1 + i by omega]
          exact ih (Function.update mem ptr d) (ptr + 1) hc

/-!
## Kernel results
-/

/-- What `fd` has not been read up to: read ahead or unread. -/
def remaining (s : Readline F) (fd : F) : List UInt8 :=
  s.aheadOf fd ++ s.unread fd

/--
`read` results for a stream: any chunks of it, of `sizeof(read_buf)` bytes at
most, an empty one at its end only, and no error but `EINTR`.
-/
def Chunks : List UInt8 -> List ReadResult -> Prop
  | _, [] => True
  | stream, ReadResult.failed errno :: rest =>
      errno = Errno.eintr ∧ Chunks stream rest
  | stream, ReadResult.received bytes :: rest =>
      (bytes.length <= READ_SIZE ∧ bytes <+: stream ∧
        (bytes = [] -> stream = [])) ∧ Chunks (stream.drop bytes.length) rest

def isChunk : ReadResult -> Bool
  | ReadResult.received _ => true
  | ReadResult.failed _ => false

structure Ready (s : Readline F) (fd : F) (results : List ReadResult) :
    Prop where
  inv : Inv s
  own : Own s fd
  chunks : Chunks (s.unread fd) results

theorem refill_chunks {s : Readline F} {fd : F} {results : List ReadResult}
    (h : Chunks (s.unread fd) results)
    (hread : 0 < results.countP isChunk) :
    exists bytes rest, refill fd s results = some (s.received fd bytes, rest) ∧
      bytes <+: s.unread fd ∧ (bytes = [] -> s.unread fd = []) ∧
      Chunks ((s.unread fd).drop bytes.length) rest ∧
      results.countP isChunk = rest.countP isChunk + 1 := by
  induction results generalizing s with
  | nil =>
      cases hread
  | cons r results ih =>
      cases r with
      | failed errno =>
          rcases h with ⟨heintr, hrest⟩
          have hskip : refill fd s (ReadResult.failed errno :: results) =
              refill fd { s with readCnt := -1 } results := by
            rw [refill, if_pos heintr]
          have hcount : (ReadResult.failed errno :: results).countP isChunk =
              results.countP isChunk :=
            List.countP_cons_of_neg Bool.false_ne_true
          rw [hcount] at hread ⊢
          rw [hskip]
          exact ih (s := { s with readCnt := -1 }) hrest hread
      | received bytes =>
          rcases h with ⟨⟨hlen, hfront, hend⟩, hrest⟩
          refine ⟨bytes, results, ?_, hfront, hend, hrest, ?_⟩
          · rw [refill, if_pos ⟨hlen, hfront⟩]
            rfl
          · exact List.countP_cons_of_pos rfl

theorem takeByte_ready {s : Readline F} {fd : F} {results : List ReadResult}
    (h : Ready s fd results) (hpos : 0 < s.readCnt) :
    exists m c, s.takeByte = some (m, c) ∧
      s.remaining fd = c :: (m.store fd c).remaining fd ∧
      Ready (m.store fd c) fd results := by
  have hcount := h.inv hpos
  cases hahead : s.ahead with
  | nil =>
      rw [hahead, List.length_nil] at hcount
      omega
  | cons c ahead =>
      have htake : s.takeByte =
          some ({ s with readCnt := s.readCnt - 1, ahead := ahead }, c) := by
        unfold takeByte
        rw [hahead]
      refine ⟨_, c, htake, ?_, takeByte_inv h.inv hpos htake,
        takeByte_own h.own hpos htake, h.chunks⟩
      have hsplit := aheadOf_takeByte h.inv hpos htake fd
      rw [if_pos (h.own hpos)] at hsplit
      unfold remaining
      rw [hsplit]
      rfl

/-!
## One byte
-/

theorem received_remaining {s : Readline F} {fd : F} {bytes : List UInt8}
    (hcnt : s.readCnt <= 0) (hfront : bytes <+: s.unread fd) :
    (s.received fd bytes).remaining fd = s.remaining fd := by
  have haccount := account_received hcnt hfront fd
  unfold account at haccount
  rw [List.append_assoc, List.append_assoc] at haccount
  exact List.append_cancel_left haccount

theorem myRead_ready {s : Readline F} {fd : F} {results : List ReadResult}
    (h : Ready s fd results) (hread : 0 < results.countP isChunk) :
    (exists m rest, myRead fd s results = some (m, rest, Rc.zero) ∧
        s.remaining fd = [] ∧ m.remaining fd = []) ∨
      exists m rest c, myRead fd s results = some (m, rest, Rc.one c) ∧
        s.remaining fd = c :: (m.store fd c).remaining fd ∧
        Ready (m.store fd c) fd rest ∧
        results.countP isChunk <= rest.countP isChunk + 1 := by
  by_cases hcnt : s.readCnt <= 0
  · rcases refill_chunks h.chunks hread with
      ⟨bytes, rest, hrefill, hfront, hend, hchunks, hcount⟩
    have hremaining := received_remaining hcnt hfront
    have hunread : (s.received fd bytes).unread fd =
        (s.unread fd).drop bytes.length := Function.update_self _ _ _
    unfold myRead
    rw [if_pos hcnt, hrefill, Option.bind_some]
    cases bytes with
    | nil =>
        left
        have hempty : s.remaining fd = [] := by
          unfold remaining
          rw [aheadOf_eq_nil hcnt, hend rfl]
          rfl
        exact ⟨_, rest, rfl, hempty, hremaining.trans hempty⟩
    | cons b bytes =>
        right
        have hpos : 0 < (s.received fd (b :: bytes)).readCnt := by
          show (0 : Int) < ((b :: bytes).length : Int)
          rw [List.length_cons]
          omega
        have hready : Ready (s.received fd (b :: bytes)) fd rest :=
          ⟨received_inv _, fun _ => rfl, by rw [hunread]; exact hchunks⟩
        rcases takeByte_ready hready hpos with ⟨m, c, htake, hc, hready'⟩
        refine ⟨m, rest, c, ?_, hremaining.symm.trans hc, hready',
          Nat.le_of_eq hcount⟩
        dsimp only
        rw [if_neg (by omega), if_neg (by omega), htake]
        rfl
  · right
    rcases takeByte_ready h (Int.not_le.mp hcnt) with ⟨m, c, htake, hc, hready⟩
    refine ⟨m, results, c, ?_, hc, hready, Nat.le_succ _⟩
    unfold myRead
    rw [if_neg hcnt, htake]
    rfl

/-!
## The loop
-/

/--
The line is written with a NUL behind it, the stream goes on behind the line,
and the counter is one ahead unless the line ends.
-/
theorem lineLoop_spec {fd : F} {count : Nat} (n : Int) (mem : Nat -> UInt8)
    (ptr : Nat) {s : Readline F} {results : List ReadResult}
    (h : Ready s fd results) (hread : count <= results.countP isChunk) :
    exists s' rest,
      lineLoop fd count n mem ptr s results =
        some (s', rest,
          written mem ptr (lineOf count (s.remaining fd) ++ [0]),
          if Ends count (s.remaining fd) then
            n - 1 + (lineOf count (s.remaining fd)).length
          else n + (lineOf count (s.remaining fd)).length) ∧
      s'.remaining fd =
        (s.remaining fd).drop (lineOf count (s.remaining fd)).length := by
  induction count generalizing n mem ptr s results with
  | zero =>
      refine ⟨s, results, ?_, rfl⟩
      have hends : ¬ Ends 0 (s.remaining fd) := by
        simp [Ends]
      rw [if_neg hends]
      simp [lineLoop, lineOf, written]
  | succ count ih =>
      rcases myRead_ready h (by omega) with
        ⟨m, rest, hcall, hempty, hempty'⟩ |
          ⟨m, rest, c, hcall, hnext, hready, hcount⟩
      · refine ⟨m, rest, ?_, ?_⟩
        · have hends : Ends (count + 1) ([] : List UInt8) :=
            Or.inr (Nat.succ_pos count)
          rw [lineLoop, hcall, hempty, if_pos hends]
          simp [lineOf, written]
        · rw [hempty, hempty']
          rfl
      · rw [lineLoop, hcall, hnext, Option.bind_some]
        by_cases hc : c = newline
        · have hends : Ends (count + 1)
              (c :: (m.store fd c).remaining fd) :=
            ends_cons.mpr (Or.inl hc)
          refine ⟨m.store fd c, rest, ?_, ?_⟩
          · rw [if_pos hends]
            simp [lineOf, written, hc]
          · simp [lineOf, hc]
        · rcases ih (n + 1) (Function.update mem ptr c) (ptr + 1) hready
            (by omega) with ⟨s', rest', hloop, hrest⟩
          have hends : Ends (count + 1) (c :: (m.store fd c).remaining fd) <->
              Ends count ((m.store fd c).remaining fd) := by
            rw [ends_cons]
            simp [hc]
          have hline : lineOf (count + 1) (c :: (m.store fd c).remaining fd) =
              c :: lineOf count ((m.store fd c).remaining fd) := by
            rw [lineOf, if_neg hc]
          refine ⟨s', rest', ?_, ?_⟩
          · dsimp only
            rw [if_neg hc, hloop, hline, List.length_cons]
            simp only [hends, List.cons_append, written]
            push_cast
            congr 4
            split <;> omega
          · rw [hline, hrest]
            rfl

/-!
## Calls on one descriptor
-/

theorem readlineLoop_keeps {fd : F} {count : Nat} {n r : Int}
    {s m : Readline F} {results rest : List ReadResult} (hinv : Inv s)
    (hown : Own s fd)
    (h : readlineLoop fd count n s results = some (m, rest, r)) :
    Own m fd := by
  induction count generalizing s n results with
  | zero =>
      cases h
      exact hown
  | succ count ih =>
      rcases Option.bind_eq_some_iff.mp h with ⟨⟨m', rest', rc⟩, hread, hgo⟩
      rcases myRead_cases hinv hread with
        ⟨t, htinv, _, _, hsame, hdone | ⟨c, hrc, hpos, htake⟩⟩
      · rcases hdone with ⟨hm, _, hcnt, hzero | hminus⟩
        · subst hm hzero
          cases hgo
          exact fun hpos => absurd hpos (Int.not_lt.mpr hcnt)
        · subst hm hminus
          cases hgo
          exact fun hpos => absurd hpos (Int.not_lt.mpr hcnt)
      · have htown : Own t fd := by
          rcases hsame with heq | hrefilled
          · rw [heq]
            exact hown
          · exact hrefilled.right
        subst hrc
        dsimp only at hgo
        split at hgo
        · cases hgo
          exact takeByte_own htown hpos htake
        · exact ih (takeByte_inv htinv hpos htake)
            (takeByte_own htown hpos htake) hgo

/-- What calls on `fd` only leave. -/
structure Solo (fd : F) (stream : List UInt8) (s : Readline F) : Prop where
  inv : Inv s
  own : Own s fd
  account_eq : s.returned fd ++ s.remaining fd = stream

theorem start_solo (fd : F) (stream : F -> List UInt8) :
    Solo fd (stream fd) (start stream) where
  inv := start_inv stream
  own := fun hpos => absurd hpos (Int.lt_irrefl 0)
  account_eq := by
    have hahead : (start stream).aheadOf fd = [] :=
      aheadOf_eq_nil (Int.le_refl 0) fd
    unfold remaining
    rw [hahead]
    rfl

theorem step_solo {fd : F} {stream : List UInt8} {s m : Readline F}
    (h : Solo fd stream s) {call : Call F} (hfd : call.fd = fd)
    (hstep : step s call = some m) : Solo fd stream m := by
  subst hfd
  rcases step_eq hstep with ⟨r, hloop⟩
  refine ⟨step_inv h.inv hstep, readlineLoop_keeps h.inv h.own hloop, ?_⟩
  have haccount := readlineLoop_own h.inv h.own hloop call.fd
  unfold account at haccount
  rw [List.append_assoc, List.append_assoc] at haccount
  exact haccount.trans h.account_eq

/--
The line is the longest one of the remaining stream, it is stored with a NUL
behind it, and the stream goes on behind it.
-/
structure StoresLine (size : Nat) (stream l : List UInt8)
    (mem : Nat -> UInt8) (after : List UInt8) : Prop where
  longest : LongestLine size stream l
  stored : forall (i : Nat) c, l[i]? = some c -> mem i = c
  nul : mem l.length = 0
  continues : after = stream.drop l.length

/--
After any calls on one descriptor, and with any chunks of its stream, a call
stores the longest line that fits; it returns the number of stored bytes exactly
if the line has a newline or the stream ends before the buffer is full.
-/
theorem readLine_returns_stored_iff (stream : F -> List UInt8) (fd : F)
    (calls : List (Call F)) (s : Readline F)
    (hfd : forall call, call ∈ calls -> call.fd = fd)
    (hrun : StepFn.run step (start stream) calls = some s) (maxlen : Nat)
    (mem : Nat -> UInt8) (results : List ReadResult)
    (hchunks : Chunks (s.unread fd) results)
    (hread : maxlen - 1 <= results.countP isChunk) :
    s.returned fd ++ s.remaining fd = stream fd ∧
      exists s' rest mem' ret line,
        s.readLine fd maxlen mem results = some (s', rest, mem', ret) ∧
          StoresLine (maxlen - 1) (s.remaining fd) line mem'
            (s'.remaining fd) ∧
          (ret = line.length <-> Ends (maxlen - 1) (s.remaining fd)) := by
  have hsolo : Solo fd (stream fd) s := by
    have hpres : forall (s : Readline F) call s', Solo fd (stream fd) s ->
        call.fd = fd -> step s call = some s' -> Solo fd (stream fd) s' := by
      intro s call s' h hcall hstep
      exact step_solo h hcall hstep
    exact StepFn.run_invariant_of_meets hpres (start_solo fd stream)
      (StepFn.meets_of_forall_mem (fun call hcall _ => hfd call hcall) _) hrun
  refine ⟨hsolo.account_eq, ?_⟩
  have hready : Ready s fd results := ⟨hsolo.inv, hsolo.own, hchunks⟩
  rcases lineLoop_spec 1 mem 0 hready hread with
    ⟨s', rest, hcall, hcontinues⟩
  refine ⟨s', rest, _, _, lineOf (maxlen - 1) (s.remaining fd), hcall, ?_, ?_⟩
  · refine ⟨lineOf_longestLine _ _, ?_, ?_, hcontinues⟩
    · intro i c hc
      have hi := (List.getElem?_eq_some_iff.mp hc).1
      have hat := written_eq mem 0
        (lineOf (maxlen - 1) (s.remaining fd) ++ [0])
        ((List.getElem?_append_left hi).trans hc)
      rwa [Nat.zero_add] at hat
    · have hlast : (lineOf (maxlen - 1) (s.remaining fd) ++ [0])[
          (lineOf (maxlen - 1) (s.remaining fd)).length]? = some 0 := by
        simp
      have hat := written_eq mem 0 _ hlast
      rwa [Nat.zero_add] at hat
  · by_cases hends : Ends (maxlen - 1) (s.remaining fd)
    · rw [if_pos hends]
      simp [hends]
    · rw [if_neg hends]
      constructor
      · intro hret
        omega
      · intro h
        exact absurd h hends

/-- Two lines arrive in two chunks and an interruption. -/
theorem readLine_returns_stored_iff_secondLine :
    exists (s s' : Readline Bool) (rest : List ReadResult)
        (mem' : Nat -> UInt8) (ret : Int) (line : List UInt8),
      StepFn.run step (start fun _ => [65, 10, 66, 67, 10])
          [⟨true, 80, [ReadResult.received [65, 10, 66]]⟩] = some s ∧
        s.remaining true = [66, 67, 10] ∧
        s.readLine true 4 (fun _ => 255)
            [ReadResult.failed Errno.eintr, ReadResult.received [67, 10],
              ReadResult.received [], ReadResult.received []] =
          some (s', rest, mem', ret) ∧
        StoresLine 3 (s.remaining true) line mem' (s'.remaining true) ∧
        (ret = line.length <-> Ends 3 (s.remaining true)) := by
  have hreached : exists s : Readline Bool,
      StepFn.run step (start fun _ => [65, 10, 66, 67, 10])
          [⟨true, 80, [ReadResult.received [65, 10, 66]]⟩] = some s ∧
        s.remaining true = [66, 67, 10] ∧ s.unread true = [67, 10] :=
    ⟨_, rfl, rfl, rfl⟩
  rcases hreached with ⟨s, hrun, hremaining, hunread⟩
  have hchunks : Chunks (s.unread true)
      [ReadResult.failed Errno.eintr, ReadResult.received [67, 10],
        ReadResult.received [], ReadResult.received []] := by
    rw [hunread]
    simp [Chunks, READ_SIZE]
  rcases (readLine_returns_stored_iff _ true _ s (by simp) hrun 4
    (fun _ => 255) _ hchunks (by decide)).right with
    ⟨s', rest, mem', ret, line, hcall, hstores, hiff⟩
  exact ⟨s, s', rest, mem', ret, line, hrun, hremaining, hcall, hstores, hiff⟩

/-- Two bytes fill the buffer, and the call returns 3. -/
theorem full_buffer_returns_more :
    exists (s' : Readline Bool) (rest : List ReadResult)
        (mem' : Nat -> UInt8),
      (start fun _ => [65, 66, 67]).readLine true 3 (fun _ => 255)
          [ReadResult.received [65, 66, 67]] = some (s', rest, mem', 3) ∧
        StoresLine 2 [65, 66, 67] [65, 66] mem' (s'.remaining true) := by
  refine ⟨_, _, _, rfl, lineOf_longestLine 2 [65, 66, 67], ?_, rfl, rfl⟩
  intro i c hc
  match i with
  | 0 =>
      cases hc
      rfl
  | 1 =>
      cases hc
      rfl

end Readline

end MoonNet
