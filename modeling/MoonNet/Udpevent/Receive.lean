import MoonNet.Udpevent.Model

/-!
# Draining a datagram socket

One call of `handle_receive` reads until the socket is empty, unless an empty
datagram ends the loop before, and it cuts off what does not fit in its buffer
of `BUFSIZE` bytes.  So a queue is delivered faithfully if it holds neither.
-/

namespace MoonNet

open Foundation
open Kernel

universe u

variable {A : Type u}

def Datagram.arrived (queue : List (Datagram A)) : List (Datagram A) :=
  queue.filter fun d => d.payload != []

namespace Reception

/--
What a reader of the socket expects of one call: nothing stays queued, each
payload has been appended in full and in order, `receive_cb_` has been called
once for each of them, and `event_cb_` not at all.
-/
structure Faithful (s t : Reception A) : Prop where
  queue : t.queue = []
  appends :
    t.appends = s.appends ++ (Datagram.arrived s.queue).map Datagram.payload
  received :
    t.received = s.received ++
      if s.udp.receiveCb then (Datagram.arrived s.queue).map Datagram.sender
      else []
  events : t.events = s.events

/--
No payload is longer than the buffer, and a datagram without payload comes last,
if at all, and meets no `event_cb_`.
-/
def Plain (eventCb : Bool) : List (Datagram A) -> Prop
  | [] => True
  | d :: rest =>
      d.payload.length <= BUFSIZE ∧
        (d.payload = [] -> rest = [] ∧ eventCb = false) ∧ Plain eventCb rest

instance decidablePlain (eventCb : Bool) :
    (queue : List (Datagram A)) -> Decidable (Plain eventCb queue)
  | [] => isTrue trivial
  | _ :: rest =>
      have := decidablePlain eventCb rest
      inferInstanceAs (Decidable (_ ∧ _ ∧ _))

/-!
# One round
-/

section Rounds

variable (effect : Nat -> ValidBuffer -> ValidBuffer)

def deliver (s : Reception A) (d : Datagram A) (rest : List (Datagram A)) :
    Reception A :=
  ({ s with queue := rest }.append (d.payload.take BUFSIZE)).receiveCb effect
    d.sender

theorem round_nil {s : Reception A} (hqueue : s.queue = []) :
    s.round effect = Round.leave s := by
  unfold round
  rw [hqueue]
  show Round.leave { s with queue := [] } = Round.leave s
  rw [← hqueue]

theorem round_empty {s : Reception A} {d : Datagram A}
    {rest : List (Datagram A)} (hqueue : s.queue = d :: rest)
    (hempty : d.payload = []) :
    s.round effect = Round.leave { s with queue := rest }.eventCb := by
  unfold round
  rw [hqueue]
  simp only [recvfrom, hempty, List.take_nil, onResult]

theorem round_cons {s : Reception A} {d : Datagram A}
    {rest : List (Datagram A)} (hqueue : s.queue = d :: rest)
    (hbytes : d.payload ≠ []) :
    s.round effect = Round.again (s.deliver effect d rest) := by
  unfold round deliver
  rw [hqueue]
  cases hpayload : d.payload with
  | nil => exact absurd hpayload hbytes
  | cons b bytes =>
      have htake : (b :: bytes).take BUFSIZE = b :: bytes.take 1023 := rfl
      simp only [recvfrom, hpayload, htake, onResult]

@[simp] theorem deliver_queue (s : Reception A) (d : Datagram A)
    (rest : List (Datagram A)) : (s.deliver effect d rest).queue = rest := by
  unfold deliver receiveCb
  split <;> rfl

@[simp] theorem deliver_appends (s : Reception A) (d : Datagram A)
    (rest : List (Datagram A)) :
    (s.deliver effect d rest).appends =
      s.appends ++ [d.payload.take BUFSIZE] := by
  unfold deliver receiveCb
  split <;> rfl

@[simp] theorem deliver_received (s : Reception A) (d : Datagram A)
    (rest : List (Datagram A)) :
    (s.deliver effect d rest).received =
      s.received ++ if s.udp.receiveCb then [d.sender] else [] := by
  unfold deliver receiveCb
  show (if s.udp.receiveCb = true then _ else _ : Reception A).received = _
  split
  · rfl
  · exact (List.append_nil _).symm

@[simp] theorem deliver_events (s : Reception A) (d : Datagram A)
    (rest : List (Datagram A)) :
    (s.deliver effect d rest).events = s.events := by
  unfold deliver receiveCb
  split <;> rfl

@[simp] theorem deliver_hasReceiveCb (s : Reception A) (d : Datagram A)
    (rest : List (Datagram A)) :
    (s.deliver effect d rest).udp.receiveCb = s.udp.receiveCb := by
  unfold deliver receiveCb
  split <;> rfl

@[simp] theorem deliver_hasEventCb (s : Reception A) (d : Datagram A)
    (rest : List (Datagram A)) :
    (s.deliver effect d rest).udp.eventCb = s.udp.eventCb := by
  unfold deliver receiveCb
  split <;> rfl

@[simp] theorem eventCb_queue (s : Reception A) :
    s.eventCb.queue = s.queue := by
  unfold eventCb
  split <;> rfl

@[simp] theorem eventCb_appends (s : Reception A) :
    s.eventCb.appends = s.appends := by
  unfold eventCb
  split <;> rfl

theorem round_again {s s' : Reception A}
    (hround : s.round effect = Round.again s') :
    exists d rest, s.queue = d :: rest ∧ d.payload ≠ [] ∧
      s' = s.deliver effect d rest := by
  cases hqueue : s.queue with
  | nil =>
      rw [round_nil effect hqueue] at hround
      cases hround
  | cons d rest =>
      by_cases hempty : d.payload = []
      · rw [round_empty effect hqueue hempty] at hround
        cases hround
      · rw [round_cons effect hqueue hempty] at hround
        cases hround
        exact ⟨d, rest, rfl, hempty, rfl⟩

theorem round_leave {s t : Reception A}
    (hround : s.round effect = Round.leave t) :
    s.queue = [] ∧ t = s ∨
      exists d rest, s.queue = d :: rest ∧ d.payload = [] ∧
        t = { s with queue := rest }.eventCb := by
  cases hqueue : s.queue with
  | nil =>
      rw [round_nil effect hqueue] at hround
      cases hround
      exact Or.inl ⟨rfl, rfl⟩
  | cons d rest =>
      by_cases hempty : d.payload = []
      · rw [round_empty effect hqueue hempty] at hround
        cases hround
        exact Or.inr ⟨d, rest, rfl, hempty, rfl⟩
      · rw [round_cons effect hqueue hempty] at hround
        cases hround

theorem round_again_queue {s s' : Reception A}
    (hround : s.round effect = Round.again s') :
    s'.queue.length < s.queue.length := by
  rcases round_again effect hround with ⟨d, rest, hqueue, _, rfl⟩
  rw [hqueue, deliver_queue]
  exact Nat.lt_succ_self _

end Rounds

/-!
# When a call is faithful
-/

theorem arrived_cons {d : Datagram A} (rest : List (Datagram A))
    (hbytes : d.payload ≠ []) :
    Datagram.arrived (d :: rest) = d :: Datagram.arrived rest := by
  unfold Datagram.arrived
  exact List.filter_cons_of_pos (by simpa using hbytes)

theorem arrived_cons_empty {d : Datagram A} (rest : List (Datagram A))
    (hempty : d.payload = []) :
    Datagram.arrived (d :: rest) = Datagram.arrived rest := by
  unfold Datagram.arrived
  exact List.filter_cons_of_neg (by simp [hempty])

theorem faithful_nil {s : Reception A} (hqueue : s.queue = []) :
    s.Faithful s := by
  refine ⟨hqueue, ?_, ?_, rfl⟩
  · rw [hqueue]
    exact (List.append_nil _).symm
  · rw [hqueue]
    show s.received = s.received ++ if _ then [] else []
    rw [ite_self, List.append_nil]

theorem faithful_empty {s : Reception A} {d : Datagram A}
    {rest : List (Datagram A)} (hqueue : s.queue = d :: rest)
    (hempty : d.payload = []) :
    s.Faithful { s with queue := rest }.eventCb <->
      rest = [] ∧ s.udp.eventCb = false := by
  constructor
  · intro h
    refine ⟨by simpa using h.queue, ?_⟩
    have hevents := h.events
    unfold eventCb at hevents
    cases hcb : s.udp.eventCb with
    | false => rfl
    | true =>
        rw [if_pos hcb] at hevents
        exact absurd hevents (Nat.succ_ne_self _)
  · rintro ⟨rfl, hcb⟩
    have hleft : ({ s with queue := [] } : Reception A).eventCb =
        { s with queue := [] } := by
      unfold eventCb
      exact if_neg (by simp [hcb])
    have hnone : Datagram.arrived s.queue = [] := by
      rw [hqueue, arrived_cons_empty [] hempty]
      rfl
    rw [hleft]
    refine ⟨rfl, ?_, ?_, rfl⟩
    · show s.appends = _
      rw [hnone, List.map_nil, List.append_nil]
    · show s.received = _
      rw [hnone, List.map_nil, ite_self, List.append_nil]

theorem faithful_cons {effect : Nat -> ValidBuffer -> ValidBuffer}
    {s t : Reception A} {d : Datagram A} {rest : List (Datagram A)}
    (hqueue : s.queue = d :: rest) (hbytes : d.payload ≠ [])
    (hextends : exists more, t.appends = (s.deliver effect d rest).appends ++ more) :
    s.Faithful t <->
      d.payload.length <= BUFSIZE ∧ (s.deliver effect d rest).Faithful t := by
  have harrived := arrived_cons rest hbytes
  rw [← hqueue] at harrived
  -- the senders of both sides agree whether or not there is a callback
  have hsenders : (s.received ++ if s.udp.receiveCb then
        (Datagram.arrived s.queue).map Datagram.sender else []) =
      (s.deliver effect d rest).received ++
        if (s.deliver effect d rest).udp.receiveCb then
          (Datagram.arrived (s.deliver effect d rest).queue).map Datagram.sender
        else [] := by
    rw [harrived, deliver_received, deliver_hasReceiveCb, deliver_queue]
    cases s.udp.receiveCb <;> simp
  constructor
  · intro h
    rcases hextends with ⟨more, hmore⟩
    have happends := h.appends
    rw [hmore, deliver_appends, harrived, List.append_assoc, List.map_cons,
      List.append_cancel_left_eq, List.singleton_append] at happends
    injection happends with htake hrest
    refine ⟨List.take_eq_self_iff _ |>.mp htake, h.queue, ?_, ?_, ?_⟩
    · rw [hmore, deliver_queue, hrest]
    · rw [h.received, hsenders]
    · rw [h.events, deliver_events]
  · rintro ⟨hlength, h⟩
    refine ⟨h.queue, ?_, ?_, ?_⟩
    · rw [h.appends, deliver_appends, deliver_queue, harrived,
        List.take_of_length_le hlength, List.append_assoc]
      rfl
    · rw [h.received, hsenders]
    · rw [h.events, deliver_events]

/--
What a call has appended stays appended, so that an early loss is not made up
for, and the call is faithful exactly on plain queues.
-/
theorem returns_faithful {effect : Nat -> ValidBuffer -> ValidBuffer}
    {s t : Reception A} (h : HandleReceive effect s t) :
    (exists more, t.appends = s.appends ++ more) ∧
      (s.Faithful t <-> Plain s.udp.eventCb s.queue) := by
  refine LoopReturns.induction (fun s t : Reception A =>
    (exists more, t.appends = s.appends ++ more) ∧
      (s.Faithful t <-> Plain s.udp.eventCb s.queue)) ?_ ?_ h
  · intro s t hround
    rcases round_leave effect hround with
      ⟨hqueue, rfl⟩ | ⟨d, rest, hqueue, hempty, rfl⟩
    · refine ⟨⟨[], (List.append_nil _).symm⟩, ?_⟩
      rw [hqueue]
      exact iff_of_true (faithful_nil hqueue) trivial
    · refine ⟨⟨[], by simp⟩, ?_⟩
      rw [faithful_empty hqueue hempty, hqueue]
      constructor
      · rintro ⟨rfl, hcb⟩
        exact ⟨by simp [hempty], fun _ => ⟨rfl, hcb⟩, trivial⟩
      · intro hplain
        exact hplain.right.left hempty
  · intro s s' t hround _ hrest
    rcases round_again effect hround with ⟨d, rest, hqueue, hbytes, rfl⟩
    constructor
    · rcases hrest.left with ⟨more, hmore⟩
      rw [deliver_appends, List.append_assoc] at hmore
      exact ⟨_, hmore⟩
    · rw [faithful_cons hqueue hbytes hrest.left, hrest.right, deliver_queue,
        deliver_hasEventCb, hqueue]
      constructor
      · rintro ⟨hlength, hplain⟩
        exact ⟨hlength, fun h => absurd h hbytes, hplain⟩
      · rintro ⟨hlength, _, hplain⟩
        exact ⟨hlength, hplain⟩

/--
One call of `handle_receive` returns, and it has delivered the queue faithfully
exactly if no payload exceeds the buffer and no empty datagram stops the loop
with datagrams behind it or an `event_cb_` to call.
-/
theorem handleReceive_faithful_iff
    (effect : Nat -> ValidBuffer -> ValidBuffer) (s : Reception A) :
    (exists t, HandleReceive effect s t ∧ s.Faithful t) <->
      Plain s.udp.eventCb s.queue := by
  constructor
  · rintro ⟨t, hreturns, h⟩
    exact (returns_faithful hreturns).right.mp h
  · intro hplain
    rcases exists_returns (round_again_queue effect) s with ⟨t, ht⟩
    exact ⟨t, ht, (returns_faithful ht).right.mpr hplain⟩

/-- A payload of one byte more than the buffer is cut off. -/
example : ¬ Plain false [(⟨1, List.replicate 1025 65⟩ : Datagram Nat)] := by
  decide +kernel

/-- A call on a datagram event of a server with this queue. -/
def arriving (queue : List (Datagram A)) : Reception A where
  udp := Udpevent.added true
  queue := queue
  appends := []
  received := []
  events := 0

/--
An empty datagram in front of one byte: the byte stays queued on an
edge-triggered socket, and `event_cb_` is called.
-/
theorem handleReceive_stops_at_emptyDatagram :
    ¬ exists t, HandleReceive (fun _ b => b)
        (arriving [⟨1, []⟩, ⟨2, [65]⟩]) t ∧
      (arriving [⟨1, []⟩, ⟨2, [65]⟩]).Faithful t := by
  rintro ⟨t, hreturns, h⟩
  have hleft : HandleReceive (fun _ b => b) (arriving [⟨1, []⟩, ⟨2, [65]⟩])
      { arriving [⟨2, [65]⟩] with events := 1 } :=
    LoopReturns.of_leave rfl
  rw [hreturns.unique hleft] at h
  cases h.queue

end Reception

end MoonNet
