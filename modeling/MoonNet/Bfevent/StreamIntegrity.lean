import MoonNet.Bfevent.Outbound

/-!
# Integrity of the outbound stream

The gathered write and the dispatch loop never lose, repeat or reorder a byte.
The direct write of `sendout` does: a short direct write drops the rest of the
payload, and a refused one leaves `-1` in the offset of the gathered write.
Runs are therefore intact exactly as long as every direct write takes the whole
payload.
-/

namespace MoonNet

open Foundation
open Kernel

/-!
## Payload bytes
-/

namespace Payload

@[simp] theorem bytesAt_length (p : Payload) (off : Int) (count : Nat) :
    (p.bytesAt off count).length = count := by
  simp [bytesAt]

@[simp] theorem bytesAt_zero (p : Payload) (off : Int) :
    p.bytesAt off 0 = [] := rfl

theorem bytesAt_add (p : Payload) (off : Int) (m n : Nat) :
    p.bytesAt off (m + n) = p.bytesAt off m ++ p.bytesAt (off + m) n := by
  simp [bytesAt, List.range_add, Function.comp_def, Int.add_assoc]

theorem drop_bytes {p : Payload} {k m : Nat} (h : p.len = k + m) :
    p.bytes.drop k = p.bytesAt k m := by
  have hsplit : p.bytes = p.bytesAt 0 k ++ p.bytesAt k m := by
    have hadd := p.bytesAt_add 0 k m
    rw [Int.zero_add] at hadd
    rw [bytes, h, hadd]
  have hk : (p.bytesAt 0 k).length = k := bytesAt_length p 0 k
  calc
    p.bytes.drop k =
        (p.bytesAt 0 k ++ p.bytesAt k m).drop (p.bytesAt 0 k).length := by
          rw [hsplit, hk]
    _ = p.bytesAt k m := List.drop_left

end Payload

/-!
## Connections

The kernel's end and the buffered event are updated separately.
-/

namespace Conn

@[simp] theorem offer_bev (c : Conn) (regions : List Region)
    (bytes : List UInt8) (r : WriteResult) :
    (c.offer regions bytes r).bev = c.bev := rfl

@[simp] theorem offer_wire (c : Conn) (regions : List Region)
    (bytes : List UInt8) (r : WriteResult) :
    (c.offer regions bytes r).wire = c.wire.offer regions bytes r := rfl

@[simp] theorem offered_offer (w : Wire) (regions : List Region)
    (bytes : List UInt8) (r : WriteResult) :
    (w.offer regions bytes r).offered = w.offered ++ regions := by
  cases r <;> rfl

@[simp] theorem offer_backlog (c : Conn) (regions : List Region)
    (bytes : List UInt8) (r : WriteResult) :
    (c.offer regions bytes r).backlog = c.backlog := rfl

@[simp] theorem setOutbuff_wire (c : Conn) (b : ValidBuffer) :
    (c.setOutbuff b).wire = c.wire := rfl

@[simp] theorem setOutbuff_backlog (c : Conn) (b : ValidBuffer) :
    (c.setOutbuff b).backlog = b.contents := rfl

theorem readbytes_eq_length (c : Conn) :
    c.bev.outbuff.readbytes = c.backlog.length :=
  ValidBuffer.readbytes_eq_length c.bev.outbuff

theorem direct_backlog {c : Conn} (h : c.direct) : c.backlog = [] := by
  have hzero : c.bev.outbuff.readbytes = 0 := by
    simp [direct] at h
    exact h.right
  rw [readbytes_eq_length] at hzero
  exact List.eq_nil_of_length_eq_zero hzero

theorem appendRest_spec (c : Conn) (p : Payload) (off : Int) (count : Nat) :
    (c.appendRest p off count).wire = c.wire ∧
      (c.appendRest p off count).backlog =
        c.backlog ++ p.bytesAt off count := by
  cases count with
  | zero =>
      simp [appendRest]
  | succ k =>
      have hpos : (0 : Int) < ((k + 1 : Nat) : Int) := by
        omega
      simp only [appendRest, if_pos hpos, Int.toNat_natCast]
      split
      · simp [backlog, setOutbuff]
      · simp [backlog, setOutbuff, enableWrite]

/-!
## The gathered write

The kernel is offered the backlog followed by the payload part, once.  What it
does not take is kept: the end of the backlog and the payload, or the end of
the payload alone.
-/

theorem gather_wire (c : Conn) (p : Payload) (n : Int) (count : Nat)
    (r : WriteResult) :
    (c.gather p n count r).fst.wire =
      c.wire.offer [Region.backlog c.backlog, Region.payload n count p.len]
        (c.backlog ++ p.bytesAt n count) r := by
  cases r with
  | failed errno =>
      cases h : errno.wouldBlock with
      | true =>
          simp [gather, h, (appendRest_spec _ p 0 count).left]
      | false =>
          simp [gather, h]
  | accepted wvn =>
      simp only [gather]
      split
      · split
        · simp [(appendRest_spec _ p 0 count).left]
        · rename_i hlt hge
          have hrest : exists k : Nat,
              (count : Int) - ((wvn : Int) - c.bev.outbuff.readbytes) = k := by
            refine ⟨count + c.bev.outbuff.readbytes - wvn, ?_⟩
            omega
          rcases hrest with ⟨k, hk⟩
          simp [hk, (appendRest_spec _ p _ k).left]
      · simp

theorem gather_backlog_accepted {c : Conn} {p : Payload} {wvn : Nat}
    (hle : wvn <= c.backlog.length + p.len) :
    (c.gather p 0 p.len (WriteResult.accepted wvn)).fst.backlog =
      (c.backlog ++ p.bytes).drop wvn := by
  have hbytes : p.bytes.length = p.len := Payload.bytesAt_length p 0 p.len
  simp only [gather, readbytes_eq_length]
  by_cases hlt : (wvn : Int) < (c.backlog.length : Int) + p.len
  · rw [if_pos hlt]
    by_cases hback : wvn < c.backlog.length
    · rw [if_pos hback, List.drop_append_of_le_length (by omega),
        (appendRest_spec _ p 0 p.len).right, setOutbuff_backlog,
        ValidBuffer.contents_retrieve]
      rfl
    · rw [if_neg hback]
      have hsplit : exists k m : Nat,
          wvn = c.backlog.length + k ∧ p.len = k + m := by
        refine ⟨wvn - c.backlog.length, c.backlog.length + p.len - wvn,
          ?_, ?_⟩ <;> omega
      rcases hsplit with ⟨k, m, hk, hm⟩
      have hdiff : (wvn : Int) - c.backlog.length = k := by
        omega
      have hrest : (p.len : Int) - k = m := by
        omega
      rw [hdiff, hrest, Int.zero_add, (appendRest_spec _ p k m).right, hk,
        ← List.drop_drop, List.drop_left, Payload.drop_bytes hm]
      simp
  · rw [if_neg hlt, List.drop_of_length_le]
    · simp
    · rw [List.length_append, hbytes]
      omega

theorem gather_stream {c : Conn} {p : Payload} {r : WriteResult}
    (hsoft : r.Soft (c.bev.outbuff.readbytes + p.len)) :
    (c.gather p 0 p.len r).fst.wire.accepted ++
        (c.gather p 0 p.len r).fst.backlog =
      c.wire.accepted ++ c.backlog ++ p.bytes := by
  rw [gather_wire]
  cases r with
  | failed errno =>
      have herrno : errno = Errno.eagain := hsoft
      subst herrno
      simp [gather, Errno.wouldBlock, Wire.offer,
        (appendRest_spec _ p 0 p.len).right, Payload.bytes]
  | accepted wvn =>
      have hle : wvn <= c.backlog.length + p.len := by
        rw [← readbytes_eq_length]
        exact hsoft.left
      have hbytes : p.bytesAt 0 p.len = p.bytes := rfl
      rw [gather_backlog_accepted hle, Wire.offer, hbytes]
      show c.wire.accepted ++ (c.backlog ++ p.bytes).take wvn ++
        (c.backlog ++ p.bytes).drop wvn = c.wire.accepted ++ c.backlog ++ p.bytes
      rw [List.append_assoc, List.take_append_drop, List.append_assoc]

end Conn

/-!
# One step

The rounds of `handle_write` and the gathered write keep the stream intact.  A
direct write keeps it intact exactly if it takes the whole payload.
-/

namespace Outbound

theorem intact_iff (s : State) :
    Intact s <->
      s.conn.wire.accepted ++ s.conn.backlog = s.sent ∧
        forall r, r ∈ s.conn.wire.offered -> r.InBounds :=
  ⟨fun h => ⟨h.stream, h.offers⟩, fun h => ⟨h.left, h.right⟩⟩

def SentIntact (s : State) (p : Payload) (c : Conn) : Prop :=
  c.wire.accepted ++ c.backlog = s.sent ++ p.bytes ∧
    forall r, r ∈ c.wire.offered -> r.InBounds

theorem inBounds_payload (len : Nat) :
    (Region.payload 0 len len).InBounds := by
  constructor
  · exact Int.le_refl 0
  · omega

theorem gather_intact {s : State} (hs : Intact s) {p : Payload}
    {r : WriteResult}
    (hsoft : r.Soft (s.conn.bev.outbuff.readbytes + p.len)) :
    SentIntact s p (s.conn.gather p 0 p.len r).fst := by
  constructor
  · rw [Conn.gather_stream hsoft, hs.stream]
  · intro region hregion
    rw [Conn.gather_wire, Conn.offered_offer] at hregion
    rcases List.mem_append.mp hregion with hold | hnew
    · exact hs.offers region hold
    · simp only [List.mem_cons, List.not_mem_nil, or_false] at hnew
      rcases hnew with hback | hpayload
      · rw [hback]
        trivial
      · rw [hpayload]
        exact inBounds_payload p.len

theorem bytes_eq_nil {p : Payload} (h : p.len = 0) : p.bytes = [] := by
  rw [Payload.bytes, h]
  rfl

theorem offer_direct_inBounds {s : State} (hs : Intact s) {p : Payload}
    {r : WriteResult} :
    forall region,
      region ∈ (s.conn.offer [Region.payload 0 p.len p.len] p.bytes
        r).wire.offered -> region.InBounds := by
  intro region hregion
  rw [Conn.offer_wire, Conn.offered_offer] at hregion
  rcases List.mem_append.mp hregion with hold | hnew
  · exact hs.offers region hold
  · rw [List.mem_singleton.mp hnew]
    exact inBounds_payload p.len

theorem sendout_direct_accepted {c : Conn} (hdirect : c.direct)
    (p : Payload) (n : Nat) (gathered : WriteResult) :
    (c.sendout p (WriteResult.accepted n) gathered).fst =
      c.offer [Region.payload 0 p.len p.len] p.bytes
        (WriteResult.accepted n) := by
  cases hcb : c.bev.writecb with
  | false =>
      simp [Conn.sendout, hdirect, hcb]
  | true =>
      simp [Conn.sendout, hdirect, hcb]

theorem sendout_direct_accepted_intact {s : State} (hs : Intact s)
    {p : Payload} {n : Nat} {gathered : WriteResult}
    (hdirect : s.conn.direct)
    (hsoft : (WriteResult.accepted n).Soft p.len) :
    SentIntact s p
        (s.conn.sendout p (WriteResult.accepted n) gathered).fst <->
      n = p.len := by
  have hempty : s.conn.backlog = [] := Conn.direct_backlog hdirect
  have hlen : p.bytes.length = p.len := Payload.bytesAt_length p 0 p.len
  have hsent : s.conn.wire.accepted = s.sent := by
    simpa [hempty] using hs.stream
  rw [sendout_direct_accepted hdirect]
  constructor
  · intro h
    have hstream := congrArg List.length h.left
    simp only [Conn.offer_wire, Conn.offer_backlog, Wire.offer, hempty, hsent,
      List.append_nil, List.length_append, List.length_take, hlen] at hstream
    have hle : n <= p.len := hsoft.left
    omega
  · intro hn
    constructor
    · show s.conn.wire.accepted ++ p.bytes.take n ++ s.conn.backlog = _
      rw [hempty, hsent, hn, ← hlen, List.take_length, List.append_nil]
    · exact offer_direct_inBounds hs

theorem sendout_direct_refused_intact {s : State} (hs : Intact s)
    {p : Payload} {gathered : WriteResult} (hdirect : s.conn.direct) :
    SentIntact s p
        (s.conn.sendout p (WriteResult.failed Errno.eagain) gathered).fst <->
      p.len = 0 := by
  have hempty : s.conn.backlog = [] := Conn.direct_backlog hdirect
  by_cases hzero : p.len = 0
  · have hcall :
        (s.conn.sendout p (WriteResult.failed Errno.eagain) gathered).fst =
          s.conn.offer [Region.payload 0 p.len p.len] p.bytes
            (WriteResult.failed Errno.eagain) := by
      simp [Conn.sendout, hdirect, Errno.wouldBlock, hzero]
    rw [hcall]
    constructor
    · intro _
      exact hzero
    · intro _
      constructor
      · show s.conn.wire.accepted ++ s.conn.backlog = s.sent ++ p.bytes
        rw [bytes_eq_nil hzero, List.append_nil]
        exact hs.stream
      · exact offer_direct_inBounds hs
  · have hpos : (0 : Int) < p.len := by
      omega
    have hcall :
        (s.conn.sendout p (WriteResult.failed Errno.eagain) gathered).fst =
          ((s.conn.offer [Region.payload 0 p.len p.len] p.bytes
            (WriteResult.failed Errno.eagain)).gather p (-1) p.len
              gathered).fst := by
      simp only [Conn.sendout, hdirect, Errno.wouldBlock, if_true, if_pos hpos]
    rw [hcall]
    constructor
    · intro h
      have hbad := h.right (Region.payload (-1) p.len p.len) (by
        rw [Conn.gather_wire, Conn.offered_offer]
        simp)
      exact absurd hbad.left (by decide)
    · intro h
      exact absurd h hzero

theorem sendout_intact_iff {s : State} (hs : Intact s) {p : Payload}
    {written gathered : WriteResult} (hwritten : written.Soft p.len)
    (hgathered : gathered.Soft (s.conn.bev.outbuff.readbytes + p.len)) :
    SentIntact s p (s.conn.sendout p written gathered).fst <->
      (s.conn.direct ->
        p.len = 0 ∨ written = WriteResult.accepted p.len) := by
  cases hdirect : s.conn.direct with
  | false =>
      have hintact :
          SentIntact s p (s.conn.sendout p written gathered).fst := by
        by_cases hpos : (0 : Int) < p.len
        · simp only [Conn.sendout, hdirect, Bool.false_eq_true, if_false,
            if_pos hpos]
          exact gather_intact hs hgathered
        · have hzero : p.len = 0 := by
            omega
          simp only [Conn.sendout, hdirect, Bool.false_eq_true, if_false,
            if_neg hpos]
          constructor
          · rw [bytes_eq_nil hzero, List.append_nil]
            exact hs.stream
          · exact hs.offers
      simp [hintact]
  | true =>
      cases written with
      | failed errno =>
          have herrno : errno = Errno.eagain := hwritten
          subst herrno
          rw [sendout_direct_refused_intact hs hdirect]
          simp
      | accepted n =>
          rw [sendout_direct_accepted_intact hs hdirect hwritten]
          constructor
          · intro hn _
            exact Or.inr (by rw [hn])
          · intro h
            cases h rfl with
            | inl hzero =>
                have hle : n <= p.len := hwritten.left
                omega
            | inr hn =>
                injection hn

theorem finishWrite_intact {s : State} (hs : Intact s) (stack : List Frame) :
    Intact { s with conn := finishWrite s.conn, stack := stack } := by
  by_cases h : s.conn.bev.outbuff.readbytes = 0
  · have hfinish : finishWrite s.conn = s.conn.disableWrite := by
      simp [finishWrite, h]
    rw [hfinish]
    exact ⟨hs.stream, hs.offers⟩
  · have hfinish : finishWrite s.conn = s.conn := by
      simp [finishWrite, h]
    rw [hfinish]
    exact ⟨hs.stream, hs.offers⟩

theorem writeRound_stream (s : State) (rest : List Frame) (r : WriteResult) :
    (writeRound s rest r).conn.wire.accepted ++
        (writeRound s rest r).conn.backlog =
      s.conn.wire.accepted ++ s.conn.backlog := by
  cases r with
  | failed errno =>
      rfl
  | accepted n =>
      unfold writeRound
      dsimp only
      split
      · show s.conn.wire.accepted ++ s.conn.backlog.take n ++
          (s.conn.bev.outbuff.retrieve n).contents = _
        rw [ValidBuffer.contents_retrieve, List.append_assoc]
        congr 1
        exact List.take_append_drop n _
      · rename_i hn
        have hzero : n = 0 := Nat.eq_zero_of_not_pos hn
        subst hzero
        show s.conn.wire.accepted ++ s.conn.backlog.take 0 ++
          s.conn.backlog = _
        rw [List.take_zero, List.append_nil]

theorem writeRound_offered (s : State) (rest : List Frame) (r : WriteResult) :
    (writeRound s rest r).conn.wire.offered =
      s.conn.wire.offered ++ [Region.backlog s.conn.backlog] := by
  cases r with
  | failed errno =>
      rfl
  | accepted n =>
      unfold writeRound
      dsimp only
      split <;> rfl

theorem writeRound_intact {s : State} (hs : Intact s) (rest : List Frame)
    (r : WriteResult) : Intact (writeRound s rest r) where
  stream := by
    have hsent : (writeRound s rest r).sent = s.sent := by
      unfold writeRound
      cases r with
      | failed errno => rfl
      | accepted n => dsimp only; split <;> rfl
    rw [writeRound_stream, hsent]
    exact hs.stream
  offers := by
    intro region hregion
    rw [writeRound_offered] at hregion
    rcases List.mem_append.mp hregion with hold | hnew
    · exact hs.offers region hold
    · rw [List.mem_singleton.mp hnew]
      trivial

theorem step_intact_iff {s s' : State} {a : Action} (hs : Intact s)
    (hsoft : Soft s a) (hstep : step s a = some s') :
    Intact s' <-> DirectWriteComplete s a := by
  cases a with
  | sendout p written gathered =>
      cases huser : userCode s.stack with
      | false =>
          simp [step, huser] at hstep
      | true =>
          simp only [step, huser, if_true, Option.some.injEq] at hstep
          subst hstep
          rw [intact_iff]
          exact sendout_intact_iff hs hsoft.left hsoft.right
  | handleWrite =>
      cases hstack : s.stack with
      | nil =>
          simp only [step, hstack, Option.some.injEq] at hstep
          subst hstep
          exact iff_of_true ⟨hs.stream, hs.offers⟩ trivial
      | cons f rest =>
          simp [step, hstack] at hstep
  | writeRound r =>
      simp only [step] at hstep
      split at hstep
      · split at hstep
        · cases hstep
          exact iff_of_true (writeRound_intact hs _ r) trivial
        · cases hstep
      · cases hstep
  | writeDone =>
      simp only [step] at hstep
      split at hstep
      · split at hstep
        · cases hstep
          exact iff_of_true (finishWrite_intact hs _) trivial
        · cases hstep
      · cases hstep
        exact iff_of_true (finishWrite_intact hs _) trivial
      · cases hstep
  | callbackReturn =>
      simp only [step] at hstep
      split at hstep
      · cases hstep
        exact iff_of_true ⟨hs.stream, hs.offers⟩ trivial
      · cases hstep

/-!
# Whole runs
-/

theorem start_intact {bev : Bfevent} (h : bev.outbuff.contents = []) :
    Intact (start bev) where
  stream := h
  offers := by
    intro r hr
    cases hr

/--
On a healthy socket, a run is intact in every state it passes through exactly
if every direct write it makes takes the whole payload.
-/
theorem throughout_intact_iff {bev : Bfevent}
    (hempty : bev.outbuff.contents = []) {acts : List Action} {t : State}
    (hsoft : StepFn.Meets step Soft (start bev) acts)
    (hrun : StepFn.run step (start bev) acts = some t) :
    StepFn.Throughout step Intact (start bev) acts <->
      StepFn.Meets step DirectWriteComplete (start bev) acts := by
  have hone : forall s a s', Intact s -> Soft s a -> step s a = some s' ->
      (Intact s' <-> DirectWriteComplete s a) := by
    intro s a s' hs hside hstep
    exact step_intact_iff hs hside hstep
  exact StepFn.throughout_iff_meets hone (start_intact hempty) hsoft hrun

/-!
Two payload bytes on an idle event with callbacks: a direct write that takes
both, one that takes the first and drops the second, and a refused one, after
which `writev` is offered the byte before the payload.
-/

def idle : Bfevent where
  ev := { events := EPOLLIN ||| EPOLLET,
          registered := some (EPOLLIN ||| EPOLLET) }
  inbuff := ValidBuffer.fresh
  outbuff := ValidBuffer.fresh
  readcb := true
  writecb := true
  eventcb := true
  closed := false

def hi : Payload where
  mem := fun i => if i = 0 then 104 else if i = 1 then 105 else 0
  len := 2
  len_lt := by decide

def hiSent (written gathered : WriteResult) : List Action :=
  [Action.sendout hi written gathered]

def hiState (accepted : List UInt8) (offered : List Region) : State where
  conn := { bev := idle, wire := { accepted := accepted, offered := offered } }
  sent := [104, 105]
  stack := [Frame.callback]

theorem throughout_intact_iff_fullWrite :
    StepFn.Throughout step Intact (start idle)
        (hiSent (WriteResult.accepted 2) (WriteResult.accepted 2)) <->
      StepFn.Meets step DirectWriteComplete (start idle)
        (hiSent (WriteResult.accepted 2) (WriteResult.accepted 2)) :=
  have hrun : StepFn.run step (start idle)
      (hiSent (WriteResult.accepted 2) (WriteResult.accepted 2)) =
        some (hiState [104, 105] [Region.payload 0 2 2]) := by
    decide +kernel
  throughout_intact_iff (by decide +kernel) (by decide +kernel) hrun

theorem shortWrite_refusedWrite_not_intact :
    (StepFn.Meets step Soft (start idle)
        (hiSent (WriteResult.accepted 1) (WriteResult.accepted 1)) ∧
      StepFn.run step (start idle)
          (hiSent (WriteResult.accepted 1) (WriteResult.accepted 1)) =
        some (hiState [104] [Region.payload 0 2 2]) ∧
      ¬ Intact (hiState [104] [Region.payload 0 2 2])) ∧
    (StepFn.Meets step Soft (start idle)
        (hiSent (WriteResult.failed Errno.eagain) (WriteResult.accepted 2)) ∧
      StepFn.run step (start idle)
          (hiSent (WriteResult.failed Errno.eagain) (WriteResult.accepted 2)) =
        some (hiState [0, 104] [Region.payload 0 2 2, Region.backlog [],
          Region.payload (-1) 2 2]) ∧
      ¬ Intact (hiState [0, 104] [Region.payload 0 2 2, Region.backlog [],
          Region.payload (-1) 2 2])) := by
  decide +kernel

end Outbound

end MoonNet
