import Mathlib.Data.List.Basic

/-!
# Results of system calls

The kernel is the environment of the program.  A call that transfers bytes
either fails with an error number or reports what it transferred.
-/

namespace MoonNet
namespace Kernel

/-- Error numbers; `EWOULDBLOCK` is `EAGAIN` on Linux. -/
inductive Errno where
  | eagain
  | eintr
  | other (code : Nat)
deriving DecidableEq, Repr

/-- The test `errno == EAGAIN || errno == EWOULDBLOCK`. -/
def Errno.wouldBlock : Errno -> Bool
  | Errno.eagain => true
  | Errno.eintr => false
  | Errno.other _ => false

/-- What a `read`, `readv` or `recvfrom` call returns. -/
inductive ReadResult where
  | failed (errno : Errno)
  | received (bytes : List UInt8)
deriving DecidableEq, Repr

/-- What a `write` or `writev` call returns. -/
inductive WriteResult where
  | failed (errno : Errno)
  | accepted (count : Nat)
deriving DecidableEq, Repr

/--
The answers a non-blocking stream socket gives to an offer of `offered` bytes
when nothing is wrong with it: any non-empty prefix, nothing when nothing was
offered, or `EAGAIN`.
-/
def WriteResult.Soft (offered : Nat) : WriteResult -> Prop
  | WriteResult.failed errno => errno = Errno.eagain
  | WriteResult.accepted count =>
      count <= offered ∧ (0 < offered -> 0 < count)

instance (offered : Nat) (r : WriteResult) : Decidable (r.Soft offered) := by
  cases r <;> unfold WriteResult.Soft <;> infer_instance

end Kernel
end MoonNet
