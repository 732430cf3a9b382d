import MoonNet.Foundation.Runs
import MoonNet.Buffer.Model

/-!
# The buffer refines a byte queue

The readable region of a well-formed buffer is a queue of bytes.  Each
operation of the buffer is shown to stay inside the vector, to keep the
representation invariant and to act on the readable region as the
corresponding operation of the abstract queue.
-/

namespace MoonNet

open Foundation
open Kernel

/-!
# The abstract byte queue

The queue is the list of unread bytes, oldest first.  Failed reads leave it
alone and successful ones add what was received.
-/

namespace ByteQueue

def step (q : List UInt8) : Buffer.Op -> List UInt8 × Buffer.Output
  | Buffer.Op.append data => (q ++ data, Buffer.Output.none)
  | Buffer.Op.removeInto len =>
      (q.drop len, Buffer.Output.copied (q.take len) (min len q.length))
  | Buffer.Op.removeString len =>
      (q.drop len, Buffer.Output.string (q.take len))
  | Buffer.Op.removeAll => ([], Buffer.Output.string q)
  | Buffer.Op.retrieve len => (q.drop len, Buffer.Output.none)
  | Buffer.Op.reset => ([], Buffer.Output.none)
  | Buffer.Op.readiov (ReadResult.failed errno) =>
      (q, Buffer.Output.read (-1) (some errno))
  | Buffer.Op.readiov (ReadResult.received bytes) =>
      (q ++ bytes, Buffer.Output.read bytes.length none)

end ByteQueue

namespace Buffer

/-!
# The readable region

Positions and region of the elementary updates: moving the positions, copying
bytes after the writer, and growing the vector.
-/

theorem fresh_wellFormed : fresh.WellFormed where
  reader_le_writer := Nat.le_refl 0
  writer_le_size := Nat.zero_le _

theorem fresh_contents : fresh.contents = [] := by
  simp [contents, readbytes, fresh]

theorem reset_wellFormed (b : Buffer) : b.reset.WellFormed where
  reader_le_writer := Nat.le_refl 0
  writer_le_size := Nat.zero_le _

theorem reset_contents (b : Buffer) : b.reset.contents = [] := by
  simp [contents, readbytes, reset]

theorem WellFormed.region {b : Buffer} (h : b.WellFormed) :
    b.reader + b.readbytes = b.writer := by
  have hle := h.reader_le_writer
  unfold readbytes
  omega

theorem WellFormed.region_le {b : Buffer} (h : b.WellFormed) :
    b.reader + b.readbytes <= b.buffer.length := by
  rw [h.region]
  exact h.writer_le_size

theorem contents_length {b : Buffer} (h : b.WellFormed) :
    b.contents.length = b.readbytes :=
  Memory.slice_length h.region_le

/-!
Bytes copied behind the writer extend the region; the bytes already in it are
before the copy and stay.
-/

theorem contents_written {b : Buffer} {data : List UInt8}
    (h : b.WellFormed) (hfit : b.writer + data.length <= b.buffer.length) :
    contents { b with
        buffer := Memory.written b.buffer b.writer data,
        writer := b.writer + data.length } =
      b.contents ++ data := by
  have hlen : b.writer + data.length - b.reader =
      b.readbytes + data.length := by
    have hle := h.reader_le_writer
    unfold readbytes
    omega
  have hold :
      Memory.slice (Memory.written b.buffer b.writer data) b.reader
        b.readbytes = b.contents :=
    Memory.slice_written_before h.writer_le_size (Nat.le_of_eq h.region)
  have hnew :
      Memory.slice (Memory.written b.buffer b.writer data)
        (b.reader + b.readbytes) data.length = data := by
    rw [h.region]
    exact Memory.slice_written_self hfit
  show Memory.slice _ b.reader (b.writer + data.length - b.reader) = _
  rw [hlen, Memory.slice_add, hold, hnew]

theorem wellFormed_written {b : Buffer} {data : List UInt8}
    (h : b.WellFormed) (hfit : b.writer + data.length <= b.buffer.length) :
    WellFormed { b with
        buffer := Memory.written b.buffer b.writer data,
        writer := b.writer + data.length } where
  reader_le_writer := Nat.le_trans h.reader_le_writer (Nat.le_add_right _ _)
  writer_le_size := by
    show b.writer + data.length <= (Memory.written b.buffer b.writer data).length
    rw [Memory.length_written hfit]
    exact hfit

/-!
# Making room

Compaction copies the region to the front, growth keeps all cells.  After
`ableWirte` the requested bytes fit behind the writer.
-/

theorem compact_spec {b : Buffer} (h : b.WellFormed) :
    exists b', b.compact = some b' ∧ b'.WellFormed ∧
      b'.contents = b.contents ∧ b'.buffer.length = b.buffer.length ∧
      b'.reader = 0 ∧ b'.writer = b.readbytes := by
  have hcontents : b.contents.length = b.readbytes := contents_length h
  have hregion := h.region_le
  have hfit : 0 + b.contents.length <= b.buffer.length := by
    omega
  have hcompact : b.compact =
      some { buffer := Memory.written b.buffer 0 b.contents,
             reader := 0, writer := b.readbytes } := by
    have hout : Memory.copyOut b.buffer b.reader b.readbytes =
        some b.contents :=
      Memory.copyOut_eq_some hregion
    simp [compact, hout, Memory.copyIn_eq_some hfit]
  refine ⟨_, hcompact, ?_, ?_, Memory.length_written hfit, rfl, rfl⟩
  · constructor
    · exact Nat.zero_le _
    · show b.readbytes <= (Memory.written b.buffer 0 b.contents).length
      rw [Memory.length_written hfit]
      omega
  · show Memory.slice (Memory.written b.buffer 0 b.contents) 0
      (b.readbytes - 0) = b.contents
    rw [Nat.sub_zero, ← hcontents]
    exact Memory.slice_written_self hfit

theorem grow_spec {b : Buffer} (h : b.WellFormed) {size : Nat}
    (hsize : b.buffer.length <= size) :
    WellFormed { b with buffer := Memory.resize b.buffer size 0 } ∧
      contents { b with buffer := Memory.resize b.buffer size 0 } =
        b.contents := by
  constructor
  · constructor
    · exact h.reader_le_writer
    · show b.writer <= (Memory.resize b.buffer size 0).length
      rw [Memory.length_resize]
      exact Nat.le_trans h.writer_le_size hsize
  · exact Memory.slice_resize 0 h.region_le hsize

theorem ableWirte_spec {b : Buffer} (h : b.WellFormed) (len : Nat) :
    exists b', b.ableWirte len = some b' ∧ b'.WellFormed ∧
      b'.contents = b.contents ∧ b'.writer + len <= b'.buffer.length := by
  have hmoved : exists m,
      (if b.writebytes < len ∧ 0 < b.reader then b.compact else some b) =
        some m ∧ m.WellFormed ∧ m.contents = b.contents := by
    by_cases hcond : b.writebytes < len ∧ 0 < b.reader
    · rcases compact_spec h with ⟨m, hm, hwell, hcontents, _⟩
      exact ⟨m, by rw [if_pos hcond, hm], hwell, hcontents⟩
    · exact ⟨b, by rw [if_neg hcond], h, rfl⟩
  rcases hmoved with ⟨m, hm, hwell, hcontents⟩
  by_cases hroom : m.writebytes < len
  · have hsize : m.buffer.length <= m.writer + len := by
      unfold writebytes at hroom
      omega
    have hgrow := grow_spec hwell hsize
    refine ⟨{ m with buffer := Memory.resize m.buffer (m.writer + len) 0 },
      ?_, hgrow.left, hgrow.right.trans hcontents, ?_⟩
    · simp only [ableWirte, hm, Option.map_some, if_pos hroom]
    · show m.writer + len <=
        (Memory.resize m.buffer (m.writer + len) 0).length
      exact Nat.le_of_eq (Memory.length_resize _ _ _).symm
  · refine ⟨m, ?_, hwell, hcontents, ?_⟩
    · simp only [ableWirte, hm, Option.map_some, if_neg hroom]
    · have hle := hwell.writer_le_size
      unfold writebytes at hroom
      omega

/-!
# The operations

One specification for each function: it is defined, keeps the invariant, and
its effect on the readable region is the abstract one.
-/

theorem append_spec {b : Buffer} (h : b.WellFormed) (data : List UInt8) :
    exists b', b.append data = some b' ∧ b'.WellFormed ∧
      b'.contents = b.contents ++ data := by
  rcases ableWirte_spec h data.length with ⟨m, hm, hwell, hcontents, hfit⟩
  refine ⟨_, ?_, wellFormed_written hwell hfit, ?_⟩
  · simp [append, hm, Memory.copyIn_eq_some hfit]
  · rw [contents_written hwell hfit, hcontents]

theorem advance_spec {b : Buffer} (h : b.WellFormed) {rbytes : Nat}
    (hle : rbytes <= b.readbytes) :
    (b.advance rbytes).WellFormed ∧
      (b.advance rbytes).contents = b.contents.drop rbytes := by
  have hregion := h.region
  have hdrop : b.contents.drop rbytes =
      Memory.slice b.buffer (b.reader + rbytes) (b.readbytes - rbytes) :=
    Memory.drop_slice _ _ _ _
  by_cases hall : b.reader + rbytes = b.writer
  · have hnone : b.readbytes - rbytes = 0 := by
      omega
    have hadv : b.advance rbytes = { b with reader := 0, writer := 0 } := by
      simp [advance, hall, reset]
    rw [hadv, hdrop, hnone, Memory.slice_zero]
    exact ⟨reset_wellFormed b, reset_contents b⟩
  · have hadv : b.advance rbytes = { b with reader := b.reader + rbytes } := by
      simp [advance, hall]
    rw [hadv, hdrop]
    constructor
    · constructor
      · show b.reader + rbytes <= b.writer
        omega
      · exact h.writer_le_size
    · have hlen : b.writer - (b.reader + rbytes) = b.readbytes - rbytes := by
        omega
      show Memory.slice b.buffer (b.reader + rbytes)
        (b.writer - (b.reader + rbytes)) = _
      rw [hlen]

theorem drop_min_readbytes {b : Buffer} (h : b.WellFormed) (len : Nat) :
    b.contents.drop (min len b.readbytes) = b.contents.drop len := by
  rw [← contents_length h]
  by_cases hle : len <= b.contents.length
  · rw [Nat.min_eq_left hle]
  · have hge : b.contents.length <= len := by
      omega
    rw [Nat.min_eq_right hge, List.drop_of_length_le hge, List.drop_length]

theorem take_min_readbytes {b : Buffer} (h : b.WellFormed) (len : Nat) :
    b.contents.take (min len b.readbytes) = b.contents.take len := by
  rw [← contents_length h, ← List.take_eq_take_min]

theorem retrieve_spec {b : Buffer} (h : b.WellFormed) (len : Nat) :
    (b.retrieve len).WellFormed ∧
      (b.retrieve len).contents = b.contents.drop len := by
  have hadv := advance_spec h (Nat.min_le_right len b.readbytes)
  exact ⟨hadv.left, hadv.right.trans (drop_min_readbytes h len)⟩

theorem remove_spec {b : Buffer} (h : b.WellFormed) (len : Nat) :
    exists b', b.remove len = some (b', b.contents.take len) ∧
      b'.WellFormed ∧ b'.contents = b.contents.drop len := by
  have hmin : min len b.readbytes <= b.readbytes := Nat.min_le_right _ _
  have hregion := h.region_le
  have hout :
      Memory.copyOut b.buffer b.reader (min len b.readbytes) =
        some (b.contents.take len) := by
    rw [Memory.copyOut_eq_some (by omega), ← take_min_readbytes h len]
    exact congrArg some (Memory.take_slice b.buffer hmin).symm
  have hadv := advance_spec h hmin
  refine ⟨b.advance (min len b.readbytes), ?_, hadv.left,
    hadv.right.trans (drop_min_readbytes h len)⟩
  simp [remove, hout]

theorem removeAll_spec {b : Buffer} (h : b.WellFormed) :
    exists b', b.removeAll = some (b', b.contents) ∧ b'.WellFormed ∧
      b'.contents = [] := by
  have hlen := contents_length h
  rcases remove_spec h b.readbytes with ⟨b', hb, hwell, hcontents⟩
  rw [← hlen, List.take_length] at hb
  rw [← hlen, List.drop_length] at hcontents
  exact ⟨b', by rw [removeAll, ← hlen, hb], hwell, hcontents⟩

/-!
A scatter read fills the free end of the vector.  If everything fits, only the
writer moves; otherwise the vector is full before the surplus is appended.
-/

/-- The stack buffer gives back exactly the surplus the kernel stored in it. -/
theorem stackBuffer_surplus {surplus : List UInt8}
    (h : surplus.length <= IOBUF) :
    exists buf,
      Memory.copyIn (List.replicate IOBUF (0 : UInt8)) 0 surplus = some buf ∧
        Memory.copyOut buf 0 surplus.length = some surplus := by
  have hfit : 0 + surplus.length <=
      (List.replicate IOBUF (0 : UInt8)).length := by
    rw [List.length_replicate]
    omega
  refine ⟨_, Memory.copyIn_eq_some hfit, ?_⟩
  rw [Memory.copyOut_eq_some]
  · rw [Memory.slice_written_self hfit]
  · rw [Memory.length_written hfit]
    exact hfit

theorem readiov_received_spec {b : Buffer} (h : b.WellFormed)
    {bytes : List UInt8} (hallowed : bytes.length <= b.iovBytes) :
    exists b', b.readiov (ReadResult.received bytes) =
        some (b', (bytes.length : Int), none) ∧
      b'.WellFormed ∧ b'.contents = b.contents ++ bytes := by
  have hsize := h.writer_le_size
  by_cases hfits : bytes.length <= b.writebytes
  · have htake : bytes.take b.writebytes = bytes :=
      List.take_of_length_le hfits
    have hfit : b.writer + bytes.length <= b.buffer.length := by
      unfold writebytes at hfits
      omega
    refine ⟨_, ?_, wellFormed_written h hfit, contents_written h hfit⟩
    simp [readiov, htake, Memory.copyIn_eq_some hfit, hfits]
  · have hlen : (bytes.take b.writebytes).length = b.writebytes :=
      List.length_take_of_le (by omega)
    have hfull : b.writer + (bytes.take b.writebytes).length =
        b.buffer.length := by
      rw [hlen]
      unfold writebytes
      omega
    have hfit := Nat.le_of_eq hfull
    have hwell := wellFormed_written h hfit
    have hcontents := contents_written h hfit
    rw [hfull] at hwell hcontents
    have hsurplus : (bytes.drop b.writebytes).length =
        bytes.length - b.writebytes :=
      List.length_drop
    have hstack : (bytes.drop b.writebytes).length <= IOBUF := by
      rw [hsurplus]
      unfold iovBytes at hallowed
      split at hallowed <;> omega
    rcases stackBuffer_surplus hstack with ⟨buf, hbuf, hout⟩
    rw [hsurplus] at hout
    rcases append_spec hwell (bytes.drop b.writebytes) with
      ⟨b', hb, hwell', hcontents'⟩
    refine ⟨b', ?_, hwell', ?_⟩
    · simp [readiov, Memory.copyIn_eq_some hfit, hfits, hbuf, hout,
        Memory.length_written hfit, hb]
    · rw [hcontents', hcontents, List.append_assoc, List.take_append_drop]

/-!
# Refinement

The relation between a buffer and a queue, the simulation of one call, and the
simulation of every sequence of calls on a fresh buffer.
-/

structure Refines (b : Buffer) (q : List UInt8) : Prop where
  wellFormed : b.WellFormed
  contents_eq : b.contents = q

theorem fresh_refines : Refines fresh [] where
  wellFormed := fresh_wellFormed
  contents_eq := fresh_contents

theorem step_refines {b : Buffer} {q : List UInt8} (h : Refines b q)
    {op : Op} (hallowed : op.Allowed b) :
    exists b', step b op = some (b', (ByteQueue.step q op).snd) ∧
      Refines b' (ByteQueue.step q op).fst := by
  have hwell := h.wellFormed
  have hq : b.contents = q := h.contents_eq
  subst hq
  cases op with
  | append data =>
      rcases append_spec hwell data with ⟨b', hb, hwell', hcontents⟩
      exact ⟨b', by simp [step, hb, ByteQueue.step], hwell', hcontents⟩
  | removeInto len =>
      rcases remove_spec hwell len with ⟨b', hb, hwell', hcontents⟩
      refine ⟨b', ?_, hwell', hcontents⟩
      simp [step, hb, ByteQueue.step, List.length_take]
  | removeString len =>
      rcases remove_spec hwell len with ⟨b', hb, hwell', hcontents⟩
      exact ⟨b', by simp [step, hb, ByteQueue.step], hwell', hcontents⟩
  | removeAll =>
      rcases removeAll_spec hwell with ⟨b', hb, hwell', hcontents⟩
      exact ⟨b', by simp [step, hb, ByteQueue.step], hwell', hcontents⟩
  | retrieve len =>
      have hspec := retrieve_spec hwell len
      exact ⟨b.retrieve len, rfl, hspec.left, hspec.right⟩
  | reset =>
      exact ⟨b.reset, rfl, reset_wellFormed b, reset_contents b⟩
  | readiov result =>
      cases result with
      | failed errno =>
          exact ⟨b, rfl, hwell, rfl⟩
      | received bytes =>
          rcases readiov_received_spec hwell hallowed with
            ⟨b', hb, hwell', hcontents⟩
          exact ⟨b', by simp [step, hb, ByteQueue.step], hwell', hcontents⟩

/--
Every sequence of calls on a fresh buffer is executed inside the vector; after
each of the calls the representation invariant holds, and the results so far
and the readable region are those of the byte queue.
-/
theorem calls_refine_byteQueue (ops : List Op)
    (hallowed : StepFn.Meets (OutStepFn.toStepFn step)
      (fun b op => op.Allowed b) fresh ops) (k : Nat) :
    exists b,
      OutStepFn.runOut step fresh (ops.take k) =
        some (b, (OutStepFn.runTotal ByteQueue.step [] (ops.take k)).snd) ∧
      b.reader <= b.writer ∧ b.writer <= b.buffer.length ∧
      b.contents =
        (OutStepFn.runTotal ByteQueue.step [] (ops.take k)).fst := by
  have hsim : forall b q op, Refines b q -> Op.Allowed b op ->
      exists b', step b op = some (b', (ByteQueue.step q op).snd) ∧
        Refines b' (ByteQueue.step q op).fst := by
    intro b q op hR hop
    exact step_refines hR hop
  rcases OutStepFn.runOut_refines hsim fresh_refines
      (StepFn.meets_take hallowed k) with ⟨b, hrun, hR⟩
  exact ⟨b, hrun, hR.wellFormed.reader_le_writer,
    hR.wellFormed.writer_le_size, hR.contents_eq⟩

theorem calls_refine_byteQueue_partlyConsumed :
    exists b,
      OutStepFn.runOut step fresh
          [Op.append [1, 2, 3], Op.removeString 1,
            Op.readiov (ReadResult.received [4, 5])] =
        some (b, [Output.none, Output.string [1], Output.read 2 none]) ∧
      b.reader <= b.writer ∧ b.writer <= b.buffer.length ∧
      b.contents = [2, 3, 4, 5] :=
  calls_refine_byteQueue
    [Op.append [1, 2, 3], Op.removeString 1,
      Op.readiov (ReadResult.received [4, 5])]
    (by decide +kernel) 3

end Buffer

end MoonNet
