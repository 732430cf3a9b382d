import MoonNet.Buffer.Refinement

/-!
# How far the vector grows

Room that consumed bytes leave in front of the reader is used before the vector
grows, and it grows only as far as the bytes to be held need it.  So its length
is bounded by the greatest number of readable bytes there has been, however many
bytes have passed through.
-/

namespace MoonNet

open Foundation
open Kernel

namespace Buffer

variable {b b' : Buffer}

/-!
## Making room
-/

theorem ableWirte_length (h : b.WellFormed) {len : Nat}
    (hable : b.ableWirte len = some b') :
    b'.buffer.length = max b.buffer.length (b.readbytes + len) := by
  have hle := h.reader_le_writer
  have hsize := h.writer_le_size
  rcases compact_spec h with ⟨m, hm, _, _, hlength, _, hwriter⟩
  unfold ableWirte at hable
  by_cases hroom : b.writebytes < len
  · by_cases hfront : 0 < b.reader
    · rw [if_pos ⟨hroom, hfront⟩, hm, Option.map_some] at hable
      by_cases hstill : m.writebytes < len
      · rw [if_pos hstill] at hable
        cases hable
        show (Memory.resize m.buffer (m.writer + len) 0).length = _
        unfold writebytes at hstill
        rw [Memory.length_resize]
        omega
      · rw [if_neg hstill] at hable
        cases hable
        unfold writebytes at hstill
        rw [hlength, hwriter] at hstill
        omega
    · rw [if_neg (fun hno => hfront hno.right), Option.map_some,
        if_pos hroom] at hable
      cases hable
      show (Memory.resize b.buffer (b.writer + len) 0).length = _
      unfold writebytes at hroom
      unfold readbytes
      rw [Memory.length_resize]
      omega
  · rw [if_neg (fun hno => hroom hno.left), Option.map_some,
      if_neg hroom] at hable
    cases hable
    unfold writebytes at hroom
    unfold readbytes
    omega

theorem append_length (h : b.WellFormed) (data : List UInt8) :
    exists b', b.append data = some b' ∧ b'.WellFormed ∧
      b'.readbytes = b.readbytes + data.length ∧
      b'.buffer.length = max b.buffer.length b'.readbytes := by
  rcases ableWirte_spec h data.length with ⟨m, hm, hwell, _, hfit⟩
  rcases append_spec h data with ⟨b', hb, hwell', hcontents⟩
  have hreadbytes : b'.readbytes = b.readbytes + data.length := by
    rw [<- contents_length hwell', hcontents, List.length_append,
      contents_length h]
  refine ⟨b', hb, hwell', hreadbytes, ?_⟩
  have hlength : b'.buffer.length = m.buffer.length := by
    have heq : b.append data = some { m with
        buffer := Memory.written m.buffer m.writer data
        writer := m.writer + data.length } := by
      simp [append, hm, Memory.copyIn_eq_some hfit]
    rw [hb] at heq
    cases heq
    exact Memory.length_written hfit
  rw [hlength, ableWirte_length h hm, hreadbytes]

/-!
## One call
-/

structure Grows (b b' : Buffer) : Prop where
  wellFormed : b'.WellFormed
  not_less : b.buffer.length <= b'.buffer.length
  backlog : b'.buffer.length <= max b.buffer.length b'.readbytes

theorem Grows.of_same (hwell : b'.WellFormed)
    (hlength : b'.buffer.length = b.buffer.length) : Grows b b' where
  wellFormed := hwell
  not_less := Nat.le_of_eq hlength.symm
  backlog := by
    rw [hlength]
    exact Nat.le_max_left _ _

theorem append_grows (h : b.WellFormed) {data : List UInt8}
    (happend : b.append data = some b') : Grows b b' := by
  rcases append_length h data with ⟨m, hm, hwell, _, hlength⟩
  rw [happend] at hm
  cases hm
  exact ⟨hwell, hlength ▸ Nat.le_max_left _ _, Nat.le_of_eq hlength⟩

theorem advance_length (b : Buffer) (rbytes : Nat) :
    (b.advance rbytes).buffer.length = b.buffer.length := by
  unfold advance reset
  dsimp only
  split <;> rfl

theorem remove_grows (h : b.WellFormed) {len : Nat} {data : List UInt8}
    (hremove : b.remove len = some (b', data)) : Grows b b' := by
  rcases remove_spec h len with ⟨m, hm, hwell, _⟩
  rw [hremove] at hm
  cases hm
  apply Grows.of_same hwell
  simp only [remove, bind, Option.bind_eq_some_iff] at hremove
  rcases hremove with ⟨out, _, heq⟩
  cases heq
  exact advance_length b _

theorem received_grows (h : b.WellFormed) {bytes : List UInt8}
    (hallowed : bytes.length <= b.iovBytes) {r : Int × Option Errno}
    (hread : b.readiov (ReadResult.received bytes) = some (b', r)) :
    Grows b b' := by
  have hsize := h.writer_le_size
  rcases readiov_received_spec h hallowed with ⟨m, hm, hwell, _⟩
  rw [hread] at hm
  cases hm
  have htake : b.writer + (bytes.take b.writebytes).length <=
      b.buffer.length := by
    rw [List.length_take]
    unfold writebytes
    omega
  simp only [readiov, Memory.copyIn_eq_some htake, bind,
    Option.bind_some] at hread
  by_cases hfits : bytes.length <= b.writebytes
  · rw [if_pos hfits] at hread
    cases hread
    exact Grows.of_same hwell (Memory.length_written htake)
  · rw [if_neg hfits] at hread
    simp only [Option.bind_eq_some_iff] at hread
    rcases hread with ⟨buf, _, surplus, _, m, happend, heq⟩
    cases heq
    have hfull : WellFormed { b with
        buffer := Memory.written b.buffer b.writer (bytes.take b.writebytes)
        writer := (Memory.written b.buffer b.writer
          (bytes.take b.writebytes)).length } := by
      refine ⟨?_, Nat.le_refl _⟩
      show b.reader <= (Memory.written _ _ _).length
      rw [Memory.length_written htake]
      exact Nat.le_trans h.reader_le_writer hsize
    have hgrows := append_grows hfull happend
    have hlength := Memory.length_written htake
    exact ⟨hwell, hlength ▸ hgrows.not_less, hlength ▸ hgrows.backlog⟩

theorem step_grows (h : b.WellFormed) {op : Op} (hallowed : op.Allowed b) :
    exists b' out, step b op = some (b', out) ∧ Grows b b' := by
  rcases step_refines ⟨h, rfl⟩ hallowed with ⟨b', hstep, _⟩
  generalize (ByteQueue.step b.contents op).snd = out at hstep
  refine ⟨b', out, hstep, ?_⟩
  cases op with
  | append data =>
      rcases Option.map_eq_some_iff.mp hstep with ⟨m, hm, heq⟩
      cases heq
      exact append_grows h hm
  | removeInto len =>
      rcases Option.map_eq_some_iff.mp hstep with ⟨m, hm, heq⟩
      cases heq
      exact remove_grows h hm
  | removeString len =>
      rcases Option.map_eq_some_iff.mp hstep with ⟨m, hm, heq⟩
      cases heq
      exact remove_grows h hm
  | removeAll =>
      rcases Option.map_eq_some_iff.mp hstep with ⟨m, hm, heq⟩
      cases heq
      exact remove_grows h hm
  | retrieve len =>
      cases hstep
      exact Grows.of_same (retrieve_spec h len).left (advance_length b _)
  | reset =>
      cases hstep
      exact Grows.of_same (reset_wellFormed b) rfl
  | readiov result =>
      cases result with
      | failed errno =>
          cases hstep
          exact Grows.of_same h rfl
      | received bytes =>
          rcases Option.map_eq_some_iff.mp hstep with ⟨m, hm, heq⟩
          cases heq
          exact received_grows h hallowed hm

/-!
## Runs
-/

/-- The greatest number of readable bytes in the states of a run. -/
def peak (b : Buffer) : List Op -> Nat
  | [] => b.readbytes
  | op :: rest =>
      match step b op with
      | none => b.readbytes
      | some r => max b.readbytes (r.fst.peak rest)

theorem readbytes_le_peak (b : Buffer) (ops : List Op) :
    b.readbytes <= b.peak ops := by
  cases ops with
  | nil => exact Nat.le_refl _
  | cons op rest =>
      rw [peak]
      split
      · exact Nat.le_refl _
      · exact Nat.le_max_left _ _

theorem run_grows (h : b.WellFormed) {ops : List Op}
    (hallowed : StepFn.Meets (OutStepFn.toStepFn step)
      (fun b op => op.Allowed b) b ops) :
    exists b', StepFn.run (OutStepFn.toStepFn step) b ops = some b' ∧
      b'.WellFormed ∧ b'.buffer.length <= max b.buffer.length (b.peak ops) := by
  induction ops generalizing b with
  | nil =>
      exact ⟨b, rfl, h, Nat.le_max_left _ _⟩
  | cons op rest ih =>
      rcases step_grows h hallowed.left with ⟨m, out, hm, hgrows⟩
      have hstep := OutStepFn.toStepFn_eq_some hm
      have hsplit := (StepFn.meets_cons_of_step hstep).mp hallowed
      rcases ih hgrows.wellFormed hsplit.right with ⟨b', hrun, hwell, hlength⟩
      refine ⟨b', StepFn.run_cons_eq_some.mpr ⟨m, hstep, hrun⟩, hwell, ?_⟩
      have hbacklog := hgrows.backlog
      have hpeak := readbytes_le_peak m rest
      simp only [peak, hm]
      omega

/--
After any calls on a new buffer the vector is at most as long as `BUFSIZE` and
the greatest backlog so far allow; no further call makes it shorter, and an
append that does not fit makes it as long as the new backlog if it is shorter.
-/
theorem memory_follows_backlog (ops : List Op)
    (hallowed : StepFn.Meets (OutStepFn.toStepFn step)
      (fun b op => op.Allowed b) fresh ops) :
    exists b, StepFn.run (OutStepFn.toStepFn step) fresh ops = some b ∧
      b.buffer.length <= max BUFSIZE (fresh.peak ops) ∧
      (forall op, op.Allowed b -> exists b' out, step b op = some (b', out) ∧
        b.buffer.length <= b'.buffer.length) ∧
      forall data, b.writebytes < data.length ->
        exists b', step b (Op.append data) = some (b', Output.none) ∧
          b'.readbytes = b.readbytes + data.length ∧
          b'.buffer.length = max b.buffer.length b'.readbytes := by
  rcases run_grows fresh_wellFormed hallowed with ⟨b, hrun, hwell, hlength⟩
  have hfresh : fresh.buffer.length = BUFSIZE := List.length_replicate
  rw [hfresh] at hlength
  refine ⟨b, hrun, hlength, ?_, ?_⟩
  · intro op hop
    rcases step_grows hwell hop with ⟨b', out, hstep, hgrows⟩
    exact ⟨b', out, hstep, hgrows.not_less⟩
  · intro data _
    rcases append_length hwell data with
      ⟨b', hb, _, hreadbytes, hlength'⟩
    exact ⟨b', by simp [step, hb], hreadbytes, hlength'⟩

theorem memory_follows_backlog_partlyConsumed :
    exists b, StepFn.run (OutStepFn.toStepFn step) fresh
        [Op.append [1, 2, 3], Op.removeString 1,
          Op.readiov (ReadResult.received [4, 5])] = some b ∧
      b.buffer.length <= max BUFSIZE (fresh.peak
        [Op.append [1, 2, 3], Op.removeString 1,
          Op.readiov (ReadResult.received [4, 5])]) := by
  rcases memory_follows_backlog
    [Op.append [1, 2, 3], Op.removeString 1,
      Op.readiov (ReadResult.received [4, 5])] (by decide +kernel) with
    ⟨b, hrun, hlength, _⟩
  exact ⟨b, hrun, hlength⟩

end Buffer

end MoonNet
