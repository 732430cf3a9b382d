import MoonNet.Buffer.Refinement

/-!
# Well-formed buffers

Buffers bundled with their representation invariant.  On these the operations
are total, and the readable region is all that later modules need to know.
-/

namespace MoonNet

open Foundation
open Kernel

structure ValidBuffer where
  raw : Buffer
  wellFormed : raw.WellFormed
deriving DecidableEq

namespace ValidBuffer

def fresh : ValidBuffer where
  raw := Buffer.fresh
  wellFormed := Buffer.fresh_wellFormed

def contents (b : ValidBuffer) : List UInt8 :=
  b.raw.contents

def readbytes (b : ValidBuffer) : Nat :=
  b.raw.readbytes

theorem append_isSome (b : ValidBuffer) (data : List UInt8) :
    (b.raw.append data).isSome := by
  rcases Buffer.append_spec b.wellFormed data with ⟨b', hb, _⟩
  simp [hb]

def append (b : ValidBuffer) (data : List UInt8) : ValidBuffer where
  raw := (b.raw.append data).get (append_isSome b data)
  wellFormed := by
    rcases Buffer.append_spec b.wellFormed data with ⟨b', hb, hwell, _⟩
    simpa [hb] using hwell

def retrieve (b : ValidBuffer) (len : Nat) : ValidBuffer where
  raw := b.raw.retrieve len
  wellFormed := (Buffer.retrieve_spec b.wellFormed len).left

def reset (b : ValidBuffer) : ValidBuffer where
  raw := b.raw.reset
  wellFormed := Buffer.reset_wellFormed b.raw

def iovBytes (b : ValidBuffer) : Nat :=
  b.raw.iovBytes

theorem received_isSome (b : ValidBuffer) {bytes : List UInt8}
    (h : bytes.length <= b.iovBytes) :
    (b.raw.readiov (ReadResult.received bytes)).isSome := by
  rcases Buffer.readiov_received_spec b.wellFormed h with ⟨b', hb, _⟩
  simp [hb]

/-- `readiov` when `readv` returns bytes. -/
def receive (b : ValidBuffer) (bytes : List UInt8)
    (h : bytes.length <= b.iovBytes) : ValidBuffer where
  raw := ((b.raw.readiov (ReadResult.received bytes)).get
    (received_isSome b h)).fst
  wellFormed := by
    rcases Buffer.readiov_received_spec b.wellFormed h with ⟨b', hb, hwell, _⟩
    simpa [hb] using hwell

@[simp] theorem contents_fresh : fresh.contents = [] :=
  Buffer.fresh_contents

@[simp] theorem contents_append (b : ValidBuffer) (data : List UInt8) :
    (b.append data).contents = b.contents ++ data := by
  rcases Buffer.append_spec b.wellFormed data with ⟨b', hb, _, hcontents⟩
  simpa [contents, append, hb] using hcontents

@[simp] theorem contents_retrieve (b : ValidBuffer) (len : Nat) :
    (b.retrieve len).contents = b.contents.drop len :=
  (Buffer.retrieve_spec b.wellFormed len).right

@[simp] theorem contents_reset (b : ValidBuffer) : b.reset.contents = [] :=
  Buffer.reset_contents b.raw

@[simp] theorem contents_receive (b : ValidBuffer) (bytes : List UInt8)
    (h : bytes.length <= b.iovBytes) :
    (b.receive bytes h).contents = b.contents ++ bytes := by
  rcases Buffer.readiov_received_spec b.wellFormed h with
    ⟨b', hb, _, hcontents⟩
  simpa [contents, receive, hb] using hcontents

theorem readbytes_eq_length (b : ValidBuffer) :
    b.readbytes = b.contents.length :=
  (Buffer.contents_length b.wellFormed).symm

end ValidBuffer

end MoonNet
