import OpenvasSmb.Util.Status

/-!
# The UTF-8 converters (`lib/charset/iconv.c`)

`utf8_pull` turns UTF-8 into UTF-16LE, `utf8_push` the other way. Both work through the
input in a loop, as long as there is input and the output has room for the shortest step,
and leave the two cursors where they stopped: `Converted` has what was written, what is
left of the input and of the room, and `errno` after a failure.
-/

namespace OpenvasSmb.Charset

open UInt8

/-- The values of `errno` that the converters set. -/
inductive Errno where
  | eilseq
  | einval
  | e2big
  deriving DecidableEq

/-- What a converter leaves. -/
structure Converted where
  out : Bytes
  rest : Bytes
  outLeft : Nat
  errno : Option Errno
  deriving DecidableEq

def Converted.stop (rest : Bytes) (outLeft : Nat) (errno : Option Errno) : Converted :=
  ⟨[], rest, outLeft, errno⟩

/-- The bytes a step wrote come before those of the later steps. -/
def Converted.wrote (p : Bytes) (c : Converted) : Converted := { c with out := p ++ c.out }

def utf8Pull : Bytes → Nat → Converted
  | [], outLeft => .stop [] outLeft none
  | c0 :: rest, outLeft =>
    if outLeft < 2 then .stop (c0 :: rest) outLeft (some .e2big)
    else if c0 &&& 0x80 = 0 then (utf8Pull rest (outLeft - 2)).wrote [c0, 0]
    else if c0 &&& 0xe0 = 0xc0 then
      match rest with
      | c1 :: rest =>
        if c1 &&& 0xc0 ≠ 0x80 then .stop (c0 :: c1 :: rest) outLeft (some .eilseq)
        else (utf8Pull rest (outLeft - 2)).wrote
          [(c0 <<< 6) ||| (c1 &&& 0x3f), (c0 >>> 2) &&& 0x7]
      | [] => .stop [c0] outLeft (some .eilseq)
    else if c0 &&& 0xf0 = 0xe0 then
      match rest with
      | c1 :: c2 :: rest =>
        if c1 &&& 0xc0 ≠ 0x80 ∨ c2 &&& 0xc0 ≠ 0x80 then
          .stop (c0 :: c1 :: c2 :: rest) outLeft (some .eilseq)
        else (utf8Pull rest (outLeft - 2)).wrote
          [(c1 <<< 6) ||| (c2 &&& 0x3f), ((c0 &&& 0xF) <<< 4) ||| ((c1 >>> 2) &&& 0xF)]
      | rest => .stop (c0 :: rest) outLeft (some .eilseq)
    else if c0 &&& 0xf8 = 0xf0 then
      match rest with
      | c1 :: c2 :: c3 :: rest =>
        if c1 &&& 0xc0 ≠ 0x80 ∨ c2 &&& 0xc0 ≠ 0x80 ∨ c3 &&& 0xc0 ≠ 0x80 then
          .stop (c0 :: c1 :: c2 :: c3 :: rest) outLeft (some .eilseq)
        else
          let codepoint := (c3 &&& 0x3f).toNat ||| ((c2 &&& 0x3f).toNat <<< 6) |||
            ((c1 &&& 0x3f).toNat <<< 12) ||| ((c0 &&& 0x7).toNat <<< 18)
          -- characters that are not minimally packed are accepted
          if codepoint < 0x10000 then
            (utf8Pull rest (outLeft - 2)).wrote
              [ofNat (codepoint &&& 0xFF), ofNat (codepoint >>> 8)]
          else if outLeft < 4 then
            .stop (c0 :: c1 :: c2 :: c3 :: rest) outLeft (some .e2big)
          else
            let codepoint := codepoint - 0x10000
            (utf8Pull rest (outLeft - 4)).wrote
              [ofNat ((codepoint >>> 10) &&& 0xFF),
                ofNat ((codepoint >>> 18) ||| 0xd8), ofNat (codepoint &&& 0xFF),
                ofNat (((codepoint >>> 8) &&& 0x3) ||| 0xdc)]
      | rest => .stop (c0 :: rest) outLeft (some .eilseq)
    else .stop (c0 :: rest) outLeft (some .einval)

def utf8Push : Bytes → Nat → Converted
  | [], outLeft => .stop [] outLeft none
  | [uc0], outLeft => .stop [uc0] outLeft (some .einval)
  | uc0 :: uc1 :: rest, outLeft =>
    if outLeft < 1 then .stop (uc0 :: uc1 :: rest) outLeft (some .e2big)
    else if uc1 = 0 ∧ uc0 &&& 0x80 = 0 then (utf8Push rest (outLeft - 1)).wrote [uc0]
    else if uc1 &&& 0xf8 = 0 then
      if outLeft < 2 then .stop (uc0 :: uc1 :: rest) outLeft (some .e2big)
      else (utf8Push rest (outLeft - 2)).wrote
        [(0xc0 : UInt8) ||| (uc0 >>> 6) ||| (uc1 <<< 2), (0x80 : UInt8) ||| (uc0 &&& 0x3f)]
    else if uc1 &&& 0xfc = 0xdc then
      -- the second part of a pair without the first
      .stop (uc0 :: uc1 :: rest) outLeft
        (some (if rest.length < 2 then .einval else .eilseq))
    else if uc1 &&& 0xfc ≠ 0xd8 then
      let codepoint := uc0.toNat ||| (uc1.toNat <<< 8)
      if outLeft < 3 then .stop (uc0 :: uc1 :: rest) outLeft (some .e2big)
      else (utf8Push rest (outLeft - 3)).wrote
        [ofNat (0xe0 ||| (codepoint >>> 12)),
          ofNat (0x80 ||| ((codepoint >>> 6) &&& 0x3f)),
          ofNat (0x80 ||| (codepoint &&& 0x3f))]
    else
      match rest with
      | uc2 :: uc3 :: rest =>
        if uc3 &&& 0xfc ≠ 0xdc then
          .stop (uc0 :: uc1 :: uc2 :: uc3 :: rest) outLeft (some .eilseq)
        else
          let codepoint := 0x10000 + (uc2.toNat ||| ((uc3 &&& 0x3).toNat <<< 8) |||
            (uc0.toNat <<< 10) ||| ((uc1 &&& 0x3).toNat <<< 18))
          if outLeft < 4 then
            .stop (uc0 :: uc1 :: uc2 :: uc3 :: rest) outLeft (some .e2big)
          else (utf8Push rest (outLeft - 4)).wrote
            [ofNat (0xf0 ||| (codepoint >>> 18)),
              ofNat (0x80 ||| ((codepoint >>> 12) &&& 0x3f)),
              ofNat (0x80 ||| ((codepoint >>> 6) &&& 0x3f)),
              ofNat (0x80 ||| (codepoint &&& 0x3f))]
      | rest => .stop (uc0 :: uc1 :: rest) outLeft (some .einval)

end OpenvasSmb.Charset
