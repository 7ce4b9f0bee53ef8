import OpenvasSmb.Util.Status
import OpenvasSmb.Kit.Bytes

/-!
# NDR pulls (`librpc/ndr/ndr.c`, `ndr_basic.c`, `ndr_string.c`)

The reading half of the marshalling library, as the WBEM decoders use it: with
`LIBNDR_FLAG_NOALIGN`, little-endian data and relative pointers.

`struct ndr_pull` is split in two. A `View` is what a decoder runs in: the outermost buffer, where
`ndr->data` points into it, `data_size` and `relative_base_offset`; it changes for the extent of a
callee only (a section, a sub-context). The offset is threaded. A `Pull` is a function of a view
and an offset, and its `Outcome` tells an error status from an access outside the outermost buffer
or through an absent descriptor (`fault`), and from a loop that does not end (`endless`).

`relative_list` is no list of tokens here: a pull hands the relative pointers it read to the pull
that resolves them. The keys of the source are freshly allocated addresses, so each lookup finds
its own entry. Offsets and sizes are `uint32_t`: sums are taken modulo `2 ^ 32`.
-/

namespace OpenvasSmb.Ndr

open Kit

/-! ## Outcomes -/

/-- How a pull ends. -/
inductive Outcome (α : Type) where
  | ok (a : α)
  | error (status : NtStatus)
  /-- An access the language does not define: outside the buffer, or through NULL. -/
  | fault
  /-- The loop or recursion budget is used up. -/
  | endless
  deriving DecidableEq

namespace Outcome

variable {α β : Type} (f : α → Outcome β)

def bind : Outcome α → (α → Outcome β) → Outcome β
  | ok a, f => f a
  | error status, _ => error status
  | fault, _ => fault
  | endless, _ => endless

@[simp] theorem ok_bind (a : α) (f : α → Outcome β) : (ok a).bind f = f a := rfl

@[simp] theorem error_bind (s : NtStatus) (f : α → Outcome β) : (error s).bind f = error s := rfl

@[simp] theorem fault_bind : (fault : Outcome α).bind f = fault := rfl

@[simp] theorem endless_bind : (endless : Outcome α).bind f = endless := rfl

/-- The inversion rule of sequencing. -/
theorem bind_eq_ok {x : Outcome α} {f : α → Outcome β} {b : β} :
    x.bind f = ok b ↔ ∃ a, x = ok a ∧ f a = ok b := by
  cases x <;> simp [bind]

/-- The outcome without the value of a success. -/
def void (x : Outcome α) : Outcome Unit := x.bind fun _ => ok ()

/-- The pull came to a defined end: a value or a status. -/
def settled : Outcome α → Bool
  | ok _ => true
  | error _ => true
  | _ => false

end Outcome

/-! ## Views and the pull monad -/

/-- `struct ndr_pull` without its offset. -/
structure View where
  /-- The outermost buffer. -/
  data : Bytes
  /-- The index in `data` that `ndr->data` points to. -/
  origin : Nat := 0
  /-- `ndr->data_size`. -/
  size : Nat
  /-- `ndr->relative_base_offset`. -/
  base : Nat := 0

variable (n : Nat)

/-- `ndr_pull_init_blob` on a buffer. -/
def View.ofBytes (data : Bytes) : View := { data, size := data.length }

/-- A pull: from the view and the offset to a value and the offset after it. -/
def Pull (α : Type) : Type := View → Nat → Outcome (α × Nat)

namespace Pull

variable {α β : Type}

instance : Monad Pull where
  pure a := fun _ off => .ok (a, off)
  bind x f := fun v off => (x v off).bind fun r => f r.1 v r.2

@[simp] theorem pure_apply (a : α) (v : View) (off : Nat) :
    (pure a : Pull α) v off = .ok (a, off) := rfl

@[simp] theorem bind_apply (x : Pull α) (f : α → Pull β) (v : View) (off : Nat) :
    (x >>= f) v off = (x v off).bind fun r => f r.1 v r.2 := rfl

def offset : Pull Nat := fun _ off => .ok (off, off)

/-- A pull that remembers where it starts. -/
def withOffset (f : Nat → Pull α) : Pull α := fun v off => f off v off

/-- `ndr->offset = off`. -/
def seek (off : Nat) : Pull Unit := fun _ _ => .ok ((), off)

/-- `ndr_pull_error` and every other early return. -/
def fail (status : NtStatus) : Pull α := fun _ _ => .error status

/-- Runs under a changed view and comes back to the view it left. -/
def within (change : View → Nat → View) (p : Pull α) : Pull α :=
  fun v off => p (change v off) off

/-- What has no defined meaning unless the condition holds. -/
def demand (condition : Bool) : Pull Unit := fun _ off =>
  if condition then .ok ((), off) else .fault

@[simp] theorem withOffset_apply (f : Nat → Pull α) (v : View) (off : Nat) :
    withOffset f v off = f off v off := rfl

@[simp] theorem seek_apply (v : View) (n off : Nat) : seek n v off = .ok ((), n) := rfl

@[simp] theorem fail_apply (s : NtStatus) (v : View) (off : Nat) :
    (fail s : Pull α) v off = .error s := rfl

@[simp] theorem within_apply (change : View → Nat → View) (p : Pull α) (v : View) (off : Nat) :
    within change p v off = p (change v off) off := rfl

/-! ## Loops -/

/-- A `for` loop over a counter: `n` times the same pull. -/
def times (item : Pull α) : Nat → Pull (List α)
  | 0 => pure []
  | n + 1 => do
      let a ← item
      let rest ← times item n
      pure (a :: rest)

/-- A `for` loop over an array. -/
def each (f : α → Pull β) : List α → Pull (List β)
  | [] => pure []
  | a :: rest => do
      let b ← f a
      let bs ← each f rest
      pure (b :: bs)

/-- `while (ndr->offset < endofs)`, behind `n` rounds and for at most `fuel` more. -/
def whileBelow (endofs : Nat) (item : Nat → Pull α) : Nat → Nat → Pull (List α)
  | 0, _ => fun _ _ => .endless
  | fuel + 1, n => fun v off =>
    if off < endofs then
      (do
        let a ← item n
        let rest ← whileBelow endofs item fuel (n + 1)
        pure (a :: rest)) v off
    else .ok ([], off)

/-- The loop with a budget of one round for every byte of the buffer. -/
def loopBelow (endofs : Nat) (item : Nat → Pull α) : Pull (List α) := fun v off =>
  whileBelow endofs item (v.data.length + 1) 0 v off

end Pull

/-! ## Ranges -/

/-- A `uint32_t` sum. -/
def u32 : Nat := n % 2 ^ 32

/-- A `uint32_t` difference of small numbers. -/
def u32Sub (n m : Nat) : Nat := u32 (n + (2 ^ 32 - m))

def maxTallocSize : Nat := 0x10000000

/-- `NDR_PULL_NEED_BYTES`. -/
def needBytes : Pull Unit := fun v off =>
  if n > v.size ∨ u32 (off + n) > v.size then .error .bufferTooSmall else .ok ((), off)

/-- `NDR_PULL_ALIGN` under `LIBNDR_FLAG_NOALIGN`: only the range check is left. -/
def pullAlign : Pull Unit := fun v off =>
  if off > v.size then .error .bufferTooSmall else .ok ((), off)

/-- The `n` bytes at an offset, if the outermost buffer has them. -/
def View.bytesAt (v : View) (off n : Nat) : Option Bytes :=
  if v.origin + off + n ≤ v.data.length then some ((v.data.drop (v.origin + off)).take n)
  else none

/-- Reads `n` bytes and moves past them, without any check. -/
def takeBytes : Pull Bytes := fun v off =>
  match v.bytesAt off n with
  | some bytes => .ok (bytes, u32 (off + n))
  | none => .fault

/-- `NDR_PULL_ALLOC_N` for `count` elements of `elsize` bytes. -/
def allocN (count elsize : Nat) : Pull Unit :=
  if count ≥ maxTallocSize / elsize then Pull.fail .noMemory else pure ()

/-- `ndr_pull_advance`. -/
def pullAdvance : Pull Unit := fun v off =>
  if u32 (off + n) > v.size then .error .bufferTooSmall else .ok ((), u32 (off + n))

/-! ## Integers -/

/-- `ndr_pull_uint8` and `ndr_pull_int8`: the range check wraps around at offset `2 ^ 32 - 1`. -/
def pullUint8 : Pull Nat := do
  needBytes 1
  let bytes ← takeBytes 1
  pure (ofLe bytes)

/-- `ndr_pull_uint16`, `ndr_pull_uint32`, `ndr_pull_udlong` and their signed
twins: `n` bytes after an alignment. -/
def pullUintN : Pull Nat := do
  pullAlign
  needBytes n
  let bytes ← takeBytes n
  pure (ofLe bytes)

/-- `ndr_pull_uint16`. -/
def pullUint16 : Pull Nat := pullUintN 2
/-- `ndr_pull_uint32`; also `ndr_pull_generic_ptr`. -/
def pullUint32 : Pull Nat := pullUintN 4

def pullNumber (width : Nat) : Pull Nat :=
  if width = 1 then pullUint8 else pullUintN width

/-! ## Strings -/

/-- `convert_string_talloc` between the character sets, done by `iconv`; `none` is its failure. -/
structure Charset where
  /-- The bytes of a string with its terminator in the DOS character set. -/
  toDos : String → Option Bytes
  /-- The string that DOS bytes (with their terminator, if they have one) denote. -/
  fromDos : Bytes → Option String
  /-- The string that little-endian UTF-16 bytes denote. -/
  fromUtf16 : Bytes → Option String

/-- `ascii_len_n`: `strnlen` plus the terminator if it is in range. -/
def asciiLenN : Bytes → Nat
  | [] => 0
  | b :: rest => if b = 0 then 1 else 1 + asciiLenN rest

def utf16LenN : Bytes → Nat
  | [] => 0
  | [_] => 0
  | [_, _] => 2
  | lo :: hi :: rest => if lo = 0 ∧ hi = 0 then 2 else 2 + utf16LenN rest

/-- The bytes from the offset up to `data_size`; every caller has just pulled a byte. -/
def remainingBytes : Pull Bytes := fun v off =>
  match v.bytesAt off (v.size - off) with
  | some bytes => .ok (bytes, off)
  | none => .fault

/-- `convert_string_talloc`, which does not convert an empty source, and the advance
past the source. -/
def convertString (convert : Bytes → Option String) (source : Bytes) : Pull String :=
  match if source = [] then none else convert source with
  | none => Pull.fail .invalidParameter
  | some s => do
      pullAdvance source.length
      pure s

/-- `ndr_pull_string` with `LIBNDR_FLAG_STR_NULLTERM`: what is found before the terminator is
converted. -/
def pullNullTerminated (scan : Bytes → Nat) (convert : Bytes → Option String) : Pull String := do
  let rest ← remainingBytes
  convertString convert (rest.take (scan rest))

/-! ## Relative pointers and sub-contexts -/

/-- `ndr_pull_save`, `ndr_pull_relative_ptr2`, the pull, `ndr_pull_restore`. -/
def atRelative {α : Type} (ptr : Nat) (p : Pull α) : Pull α := fun v off =>
  if u32 (ptr + v.base) > v.size then .error .bufferTooSmall
  else (p v (u32 (ptr + v.base))).bind fun r => .ok (r.1, off)

/-- The content of a sub-context: `ndr_pull` set up anew over its bytes. An empty
content stands for NULL. -/
def subcontextContent {α : Type} (content : View → Outcome α) (contentSize : Nat) :
    Pull (Option α) := fun v off =>
  if contentSize = 0 then .ok (none, off)
  else (content { v with origin := v.origin + off, size := contentSize, base := 0 }).bind
    fun a => .ok (some a, off)

/-- The pull of a sub-context with a 4-byte header (`ndr_pull_subcontext_start`,
the content, `ndr_pull_subcontext_end`). -/
def subcontext4 {α : Type} (content : View → Outcome α) : Pull (Option α) := do
  let contentSize ← pullUint32
  needBytes contentSize
  let value ← subcontextContent content contentSize
  pullAdvance contentSize
  pure value

end OpenvasSmb.Ndr
