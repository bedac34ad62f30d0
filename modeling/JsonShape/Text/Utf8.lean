/-!
# UTF-8

Decoding of bytes as UTF-8. A failure names the bytes at fault: a byte that starts no character, a
character cut short by a byte that cannot continue it, or one cut short by the end.
-/

namespace JsonShape.Text.Utf8

/-- Why bytes are no UTF-8. -/
inductive Reason
  | invalidStart | invalidContinuation | unexpectedEnd
  deriving DecidableEq, Repr

/-- The bytes at fault: `count` of them from offset `start` on, of which `first` is the first. -/
structure Failure where
  reason : Reason
  first : UInt8
  start : Nat
  count : Nat
  deriving DecidableEq, Repr

/-- A reason in words. -/
def Reason.describe : Reason → String
  | .invalidStart => "invalid start byte"
  | .invalidContinuation => "invalid continuation byte"
  | .unexpectedEnd => "unexpected end of data"

/-- The two-digit hexadecimal form of a byte. -/
private def byteHex (b : UInt8) : String :=
  let digit (n : Nat) := if n < 10 then Char.ofNat (48 + n) else Char.ofNat (87 + n)
  String.ofList [digit (b.toNat / 16), digit (b.toNat % 16)]

/-- The message of a failure: one byte is named by its value, several by their offsets. -/
def Failure.message (e : Failure) : String :=
  let place :=
    if e.count = 1 then s!"byte 0x{byteHex e.first} in position {e.start}"
    else s!"bytes in position {e.start}-{e.start + e.count - 1}"
  s!"'utf-8' codec can't decode {place}: {e.reason.describe}"

/-- How a first byte goes on: the number of bytes that follow, the least and greatest value of the
next one, and the bits the first byte contributes. A byte that starts no longer character has none. -/
def lead? (b : Nat) : Option (Nat × Nat × Nat × Nat) :=
  if 0xC2 ≤ b && b ≤ 0xDF then some (1, 0x80, 0xBF, b - 0xC0)
  else if b == 0xE0 then some (2, 0xA0, 0xBF, 0)
  else if b == 0xED then some (2, 0x80, 0x9F, 0xD)
  else if 0xE1 ≤ b && b ≤ 0xEF then some (2, 0x80, 0xBF, b - 0xE0)
  else if b == 0xF0 then some (3, 0x90, 0xBF, 0)
  else if 0xF1 ≤ b && b ≤ 0xF3 then some (3, 0x80, 0xBF, b - 0xF0)
  else if b == 0xF4 then some (3, 0x80, 0x8F, 4)
  else none

/-- Reads `owed` continuation bytes, the next of them between `low` and `high`. Returns the code
point, or how many bytes were read before the fault and its reason. -/
def continuation : (owed low high code read : Nat) → List UInt8 → Except (Nat × Reason) Nat
  | 0, _, _, code, _, _ => .ok code
  | _ + 1, _, _, _, read, [] => .error (read, .unexpectedEnd)
  | owed + 1, low, high, code, read, b :: rest =>
    if low ≤ b.toNat && b.toNat ≤ high then
      continuation owed 0x80 0xBF (code * 64 + b.toNat % 64) (read + 1) rest
    else .error (read, .invalidContinuation)

/-- Decodes the bytes that stand at offset `start`. The number `skip` says how many of them belong to
the character before. -/
def decodeFrom : (start skip : Nat) → List UInt8 → Except Failure (List Char)
  | _, _, [] => .ok []
  | start, skip + 1, _ :: rest => decodeFrom (start + 1) skip rest
  | start, 0, b :: rest =>
    if b.toNat < 0x80 then (Char.ofNat b.toNat :: ·) <$> decodeFrom (start + 1) 0 rest
    else match lead? b.toNat with
      | none => .error ⟨.invalidStart, b, start, 1⟩
      | some (owed, low, high, bits) =>
        match continuation owed low high bits 1 rest with
        | .error (count, reason) => .error ⟨reason, b, start, count⟩
        | .ok code => (Char.ofNat code :: ·) <$> decodeFrom (start + 1) owed rest

/-- The characters that bytes encode. -/
def decode (bytes : List UInt8) : Except Failure (List Char) :=
  decodeFrom 0 0 bytes

end JsonShape.Text.Utf8
