import Mathlib.Data.List.DropRight
import OpenvasSmb.Kit.Bytes
import OpenvasSmb.Util.Status

/-!
# Compressed NBT names (`libcli/nbt/nbtname.c`)

A name goes over the wire in 32 letters: 15 bytes, padded, and its type. `decompress_name` works in
place, behind what it has read.
-/

namespace OpenvasSmb.Nbt

open Kit List

def letters (c : UInt8) : Bytes := [(65 : UInt8) + c >>> 4, 65 + (c &&& 0xF)]

def compressName (name : Bytes) (type : UInt8) : Option Bytes :=
  if 15 < name.length then none
  else
    let padChar : UInt8 := if name = [42] then 0 else 32
    some ((name ++ replicate (15 - name.length) padChar ++ [type]).flatMap letters)

/-- The loop of `decompress_name`. Behind a single letter stands the NUL. -/
def decompressLoop : Bytes → Option Bytes
  | [] => some []
  | [_] => none
  | c1 :: c2 :: rest =>
    if c1 < 65 ∨ 80 < c1 ∨ c2 < 65 ∨ 80 < c2 then none
    else (decompressLoop rest).map (((c1 - 65) <<< 4 ||| (c2 - 65)) :: ·)

/-- The name, up to a NUL in it, and the type, which is read from a `char`. -/
def decompressName (name : Bytes) : Option (Bytes × Int8) := do
  let name ← decompressLoop name
  let (type, name) := if name.length = 16 then (name.getD 15 0, name.take 15) else (0, name)
  some ((name.rdropWhile (· = 32)).takeWhile (· ≠ 0), type.toInt8)

theorem decompressLoop_letters (text : Bytes) :
    decompressLoop (text.flatMap letters) = some text := by
  induction text with
  | nil => rfl
  | cons c text ih =>
    have hc := forall_byte (P := fun c => decompressLoop (letters c) = some [c])
      (by decide +kernel) c
    simp only [letters, decompressLoop] at hc
    simp only [flatMap_cons, letters, cons_append, nil_append, decompressLoop, ih]
    split_ifs at hc ⊢
    simpa using hc

/-- **NBT names.** A name of at most 15 bytes is read back without the spaces at its end, and its
type as a signed `char`. -/
theorem nbt_name_round_trip (name : Bytes) (type : UInt8) (hlength : name.length ≤ 15)
    (hnul : 0 ∉ name) : (compressName name type).bind decompressName =
      some (name.rdropWhile (· = 32), type.toInt8) := by
  rw [compressName, if_neg (Nat.not_lt.mpr hlength), Option.bind_some, decompressName,
    decompressLoop_letters]
  generalize hpad : (if name = [42] then 0 else 32 : UInt8) = c, hk : 15 - name.length = k
  have hpadded : (name ++ replicate k c).length = 15 := by
    rw [length_append, length_replicate]
    omega
  have htext : ((name ++ replicate k c).rdropWhile (· = 32)).takeWhile (· ≠ 0) =
      name.rdropWhile (· = 32) := by
    split_ifs at hpad with hstar
    · -- `*` is padded with NULs, which end the string
      rw [← hk, hstar, ← hpad]
      rfl
    · rw [← hpad, rdropWhile, reverse_append, dropWhile_append_of_pos (by simp)]
      refine takeWhile_eq_self_iff.mpr fun c hc => decide_eq_true fun hzero => hnul (hzero ▸ ?_)
      exact mem_reverse.mp ((dropWhile_sublist _).subset (mem_reverse.mp hc))
  generalize name ++ replicate k c = padded at hpadded htext
  simpa [hpadded] using htext

theorem nbt_name_round_trip_server :
    (compressName [65, 32] 0x20).bind decompressName = some ([65], 0x20) :=
  nbt_name_round_trip [65, 32] 0x20 (by decide) (by decide)

end OpenvasSmb.Nbt
