import TemplateLint.Text

/-!
# UTF-8

Encoding and strict decoding.  The decoder reads one byte at a time and
remembers the sequence it is in, so a fault names exactly the bytes of the
longest valid beginning of a sequence.
-/

namespace TemplateLint.Utf8

/-- The content of a file. -/
abbrev Bytes := List UInt8

/-- One byte from the low eight bits of a number. -/
def byte (value : Nat) : UInt8 := UInt8.ofNat value

def encodeChar (c : Char) : Bytes :=
  let code := c.toNat
  if code < 0x80 then [byte code]
  else if code < 0x800 then [byte (0xC0 + code / 64), byte (0x80 + code % 64)]
  else if code < 0x10000 then
    [byte (0xE0 + code / 4096), byte (0x80 + code / 64 % 64),
      byte (0x80 + code % 64)]
  else
    [byte (0xF0 + code / 262144), byte (0x80 + code / 4096 % 64),
      byte (0x80 + code / 64 % 64), byte (0x80 + code % 64)]

def encode (text : Text) : Bytes := text.flatMap encodeChar

/-- Why a sequence of bytes is no character. -/
inductive Reason where
  | invalidStart
  | invalidContinuation
  | unexpectedEnd
  deriving DecidableEq, Repr

/-- The bytes that are no character, by the place of the first one. -/
structure Fault where
  reason : Reason
  start : Nat
  length : Nat
  first : Nat
  deriving DecidableEq, Repr

/-- A sequence that has begun: how many bytes are missing, the bounds of the
next one, and the value collected so far. -/
structure Pending where
  start : Nat
  first : Nat
  missing : Nat
  low : Nat
  high : Nat
  value : Nat

/-- The sequence that a first byte begins.  The bounds of the second byte
exclude long forms, surrogates and values past the last code point. -/
def begins? (position : Nat) (first : Nat) : Option Pending :=
  if 0xC2 ≤ first ∧ first ≤ 0xDF then
    some ⟨position, first, 1, 0x80, 0xBF, first - 0xC0⟩
  else if 0xE0 ≤ first ∧ first ≤ 0xEF then
    some ⟨position, first, 2, if first = 0xE0 then 0xA0 else 0x80,
      if first = 0xED then 0x9F else 0xBF, first - 0xE0⟩
  else if 0xF0 ≤ first ∧ first ≤ 0xF4 then
    some ⟨position, first, 3, if first = 0xF0 then 0x90 else 0x80,
      if first = 0xF4 then 0x8F else 0xBF, first - 0xF0⟩
  else none

/-- The sequence with one more byte. -/
def Pending.accept (pending : Pending) (next : Nat) : Pending :=
  { pending with
    missing := pending.missing - 1
    low := 0x80
    high := 0xBF
    value := pending.value * 64 + next % 64 }

def Pending.fault (pending : Pending) (reason : Reason) (position : Nat) :
    Fault :=
  ⟨reason, pending.start, position - pending.start, pending.first⟩

def decodeFrom (position : Nat) : Option Pending → Bytes → Except Fault Text
  | none, [] => .ok []
  | some pending, [] => .error (pending.fault .unexpectedEnd position)
  | none, next :: rest =>
      if next.toNat < 0x80 then
        (decodeFrom (position + 1) none rest).map (Char.ofNat next.toNat :: ·)
      else
        match begins? position next.toNat with
        | some pending => decodeFrom (position + 1) (some pending) rest
        | none => .error ⟨.invalidStart, position, 1, next.toNat⟩
  | some pending, next :: rest =>
      if pending.low ≤ next.toNat ∧ next.toNat ≤ pending.high then
        let longer := pending.accept next.toNat
        if longer.missing = 0 then
          (decodeFrom (position + 1) none rest).map
            (Char.ofNat longer.value :: ·)
        else decodeFrom (position + 1) (some longer) rest
      else .error (pending.fault .invalidContinuation position)

/-- The text that the bytes encode.  A byte order mark is a character like
any other. -/
def decode (bytes : Bytes) : Except Fault Text := decodeFrom 0 none bytes

def Reason.message : Reason → Text
  | .invalidStart => "invalid start byte"
  | .invalidContinuation => "invalid continuation byte"
  | .unexpectedEnd => "unexpected end of data"

def Fault.message (fault : Fault) : Text :=
  let place : Text :=
    if fault.length = 1 then
      "byte 0x" ++ Text.hexadecimal 2 fault.first ++ " in position "
        ++ Text.ofNat fault.start
    else
      "bytes in position " ++ Text.ofNat fault.start ++ "-"
        ++ Text.ofNat (fault.start + fault.length - 1)
  "'utf-8' codec can't decode " ++ place ++ ": " ++ fault.reason.message

end TemplateLint.Utf8
