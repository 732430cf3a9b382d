import MoonNet.Event.Model

/-!
# Flags of the interest mask

The calls that enable or disable one flag, and what a sequence of them says
about a bit of the mask: the last call that names the bit decides.
-/

namespace MoonNet

inductive FlagCall where
  | enableRead
  | disableRead
  | enableWrite
  | disableWrite
  | enableET
  | disableET
deriving DecidableEq, Repr

namespace FlagCall

def flag : FlagCall -> Mask
  | enableRead => EPOLLIN
  | disableRead => EPOLLIN
  | enableWrite => EPOLLOUT
  | disableWrite => EPOLLOUT
  | enableET => EPOLLET
  | disableET => EPOLLET

def enables : FlagCall -> Bool
  | enableRead => true
  | disableRead => false
  | enableWrite => true
  | disableWrite => false
  | enableET => true
  | disableET => false

def lastNaming (i : Nat) (calls : List FlagCall) : Option Bool :=
  calls.foldl
    (fun last c => if c.flag.getLsbD i then some c.enables else last) none

theorem lastNaming_concat (i : Nat) (calls : List FlagCall) (c : FlagCall) :
    lastNaming i (calls ++ [c]) =
      if c.flag.getLsbD i then some c.enables else lastNaming i calls := by
  unfold lastNaming
  rw [List.foldl_append]
  rfl

end FlagCall

theorem getLsbD_EPOLLIN (i : Nat) : EPOLLIN.getLsbD i = decide (i = 0) := by
  show (BitVec.twoPow 32 0).getLsbD i = _
  rw [BitVec.getLsbD_twoPow]
  simp [eq_comm]

theorem getLsbD_EPOLLET (i : Nat) : EPOLLET.getLsbD i = decide (i = 31) := by
  show (BitVec.twoPow 32 31).getLsbD i = _
  rw [BitVec.getLsbD_twoPow]
  simp [eq_comm]

namespace Interest

def Passed (e : Interest) : Prop :=
  e.registered = some e.events

theorem enableListen_passed {e : Interest} (h : e.registered = none) :
    e.enableListen.Passed := by
  unfold Passed enableListen
  rw [h]
  rfl

theorem updateEp_passed {e : Interest} (h : e.Passed) : e.updateEp.Passed := by
  unfold Passed updateEp
  rw [h]
  rfl

theorem enableEvents_passed {e : Interest} (h : e.Passed) (op : Mask) :
    (e.enableEvents op).Passed := by
  unfold Passed at h
  unfold Passed enableEvents updateEp
  rw [h]
  rfl

theorem disableEvents_passed {e : Interest} (h : e.Passed) (op : Mask) :
    (e.disableEvents op).Passed := by
  unfold Passed at h
  unfold Passed disableEvents updateEp
  rw [h]
  rfl

def call (e : Interest) : FlagCall -> Interest
  | FlagCall.enableRead => e.enableRead
  | FlagCall.disableRead => e.disableRead
  | FlagCall.enableWrite => e.enableWrite
  | FlagCall.disableWrite => e.disableWrite
  | FlagCall.enableET => e.enableET
  | FlagCall.disableET => e.disableET

theorem call_eq (e : Interest) (c : FlagCall) :
    e.call c =
      if c.enables then e.enableEvents c.flag else e.disableEvents c.flag := by
  cases c <;> rfl

theorem call_passed {e : Interest} (h : e.Passed) (c : FlagCall) :
    (e.call c).Passed := by
  rw [call_eq]
  split
  · exact enableEvents_passed h c.flag
  · exact disableEvents_passed h c.flag

theorem enableEvents_getLsbD (e : Interest) (op : Mask) (i : Nat) :
    (e.enableEvents op).events.getLsbD i =
      if op.getLsbD i then true else e.events.getLsbD i := by
  show (e.events ||| op).getLsbD i = _
  rw [BitVec.getLsbD_or]
  cases op.getLsbD i with
  | false => exact Bool.or_false _
  | true => exact Bool.or_true _

theorem disableEvents_getLsbD (e : Interest) (op : Mask) (i : Nat) :
    (e.disableEvents op).events.getLsbD i =
      if op.getLsbD i then false else e.events.getLsbD i := by
  show (e.events &&& ~~~op).getLsbD i = _
  rw [BitVec.getLsbD_and, BitVec.getLsbD_not]
  by_cases hi : i < 32
  · cases op.getLsbD i <;> simp [hi]
  · rw [BitVec.getLsbD_of_ge e.events i (Nat.le_of_not_lt hi)]
    simp

theorem call_getLsbD (e : Interest) (c : FlagCall) (i : Nat) :
    (e.call c).events.getLsbD i =
      if c.flag.getLsbD i then c.enables else e.events.getLsbD i := by
  rw [call_eq]
  cases henables : c.enables with
  | false => exact disableEvents_getLsbD e c.flag i
  | true => exact enableEvents_getLsbD e c.flag i

end Interest

end MoonNet
