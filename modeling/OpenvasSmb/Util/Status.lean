import Mathlib.Algebra.Group.Int.Defs
import Mathlib.Algebra.Group.Nat.Defs
import Mathlib.Logic.Basic

/-!
# Bytes and status codes

Byte strings (`DATA_BLOB` contents) and the two 32-bit status types of `libcli/util/nt_status.h`.
A blob with a NULL data pointer is the empty one; where the source tests the pointer rather than
the length the model carries an `Option`.

`NT_STATUS_EQUAL` compares the 32-bit values. (The detour through the DOS error mapping is only
taken when `nt status support` is switched off, against the default of `param/loadparm.c`.)
Allocations succeed: the out-of-memory branches of the source are not modelled, except where a
function takes the status of an allocating callee as data.
-/

namespace OpenvasSmb

/-- The contents of a `DATA_BLOB`, and byte buffers in general. -/
abbrev Bytes := List UInt8

/-- `NTSTATUS`. -/
structure NtStatus where
  v : UInt32
  deriving DecidableEq

namespace NtStatus

def ok : NtStatus := ⟨0x00000000⟩
def moreEntries : NtStatus := ⟨0x00000105⟩
def unsuccessful : NtStatus := ⟨0xC0000001⟩
def notImplemented : NtStatus := ⟨0xC0000002⟩
def infoLengthMismatch : NtStatus := ⟨0xC0000004⟩
def invalidParameter : NtStatus := ⟨0xC000000D⟩
def noSuchFile : NtStatus := ⟨0xC000000F⟩
def endOfFile : NtStatus := ⟨0xC0000011⟩
def moreProcessingRequired : NtStatus := ⟨0xC0000016⟩
def noMemory : NtStatus := ⟨0xC0000017⟩
def accessDenied : NtStatus := ⟨0xC0000022⟩
def bufferTooSmall : NtStatus := ⟨0xC0000023⟩
def logonFailure : NtStatus := ⟨0xC000006D⟩
def ioTimeout : NtStatus := ⟨0xC00000B5⟩
def notSupported : NtStatus := ⟨0xC00000BB⟩
def unexpectedNetworkError : NtStatus := ⟨0xC00000C4⟩
def netWriteFault : NtStatus := ⟨0xC00000D2⟩
def cantAccessDomainInfo : NtStatus := ⟨0xC00000DA⟩
def internalError : NtStatus := ⟨0xC00000E5⟩
def invalidAddress : NtStatus := ⟨0xC0000141⟩
def invalidLevel : NtStatus := ⟨0xC0000148⟩
def connectionDisconnected : NtStatus := ⟨0xC000020C⟩
def notFound : NtStatus := ⟨0xC0000225⟩
def rpcUnsupportedNameSyntax : NtStatus := ⟨0xC0020026⟩

/-- `NT_STATUS_IS_OK`. -/
def isOk (s : NtStatus) : Bool := s.v == 0

/-- `NT_STATUS_IS_ERR`. -/
def isErr (s : NtStatus) : Bool := s.v &&& 0xc0000000 == 0xc0000000

@[simp] theorem isOk_ok : isOk ok = true := by decide

@[simp] theorem isErr_ok : isErr ok = false := by decide

@[simp] theorem isOk_moreEntries : isOk moreEntries = false := by decide

@[simp] theorem isErr_moreEntries : isErr moreEntries = false := by decide

@[simp] theorem isOk_noMemory : isOk noMemory = false := by decide

theorem isOk_of_isErr {s : NtStatus} (h : s.isErr = true) : s.isOk = false := by
  cases hok : s.isOk with
  | false => rfl
  | true =>
    have hzero : s.v = 0 := by simpa [isOk] using hok
    simp [isErr, hzero] at h

theorem isOk_iff (s : NtStatus) : s.isOk = true ↔ s = ok := by
  cases s with
  | mk v => simp [isOk, ok]

@[simp] theorem moreProcessingRequired_ne_ok : moreProcessingRequired ≠ ok := by decide

@[simp] theorem invalidParameter_ne_ok : invalidParameter ≠ ok := by decide

@[simp] theorem accessDenied_ne_ok : accessDenied ≠ ok := by decide

end NtStatus

/-- `WERROR`. -/
structure Werror where
  v : UInt32
  deriving DecidableEq

namespace Werror

def ok : Werror := ⟨0⟩

/-- `W_ERROR_IS_OK`. -/
def isOk (w : Werror) : Bool := w.v == 0

end Werror

end OpenvasSmb
