import Stencil.Text.Basic

/-!
Reading bytes as UTF-8 text. A byte that is not ASCII opens a character of two
to four bytes, and it limits the byte after it so that no character has two
spellings and no surrogate is spelled. A fault names the longest prefix that
is text and how many of the bytes after it can open no character; no count is
given when the input merely ends inside one.
-/
namespace Stencil.Utf8

structure Fault where
  validUpTo : Nat
  length : Option Nat
  deriving DecidableEq, Repr

def Fault.message (fault : Fault) : String :=
  match fault.length with
  | some length => s!"invalid utf-8 sequence of {length} bytes from index {fault.validUpTo}"
  | none => s!"incomplete utf-8 byte sequence from index {fault.validUpTo}"

/-- A character that has been opened and not yet closed: the bits it has so
far, the range of its next byte, how many bytes follow that one, and how many
bytes were read. -/
structure Pending where
  code : Nat
  low : UInt8
  high : UInt8
  owed : Nat
  seen : Nat
  deriving DecidableEq, Repr

def Pending.ofLead? (byte : UInt8) : Option Pending :=
  if byte < 0xC2 then none
  else if byte < 0xE0 then some ⟨byte.toNat - 0xC0, 0x80, 0xBF, 0, 1⟩
  else if byte = 0xE0 then some ⟨0, 0xA0, 0xBF, 1, 1⟩
  else if byte = 0xED then some ⟨0xD, 0x80, 0x9F, 1, 1⟩
  else if byte < 0xF0 then some ⟨byte.toNat - 0xE0, 0x80, 0xBF, 1, 1⟩
  else if byte = 0xF0 then some ⟨0, 0x90, 0xBF, 2, 1⟩
  else if byte < 0xF4 then some ⟨byte.toNat - 0xF0, 0x80, 0xBF, 2, 1⟩
  else if byte = 0xF4 then some ⟨4, 0x80, 0x8F, 2, 1⟩
  else none

def Pending.extended (pending : Pending) (byte : UInt8) : Nat :=
  pending.code * 64 + (byte.toNat - 0x80)

/-- Reads on from a character border at `start`, or inside the character opened
there. `done` holds the characters so far, the last one first. -/
def decodeFrom (start : Nat) (done : Text) : Option Pending → Bytes → Except Fault Text
  | none, [] => .ok done.reverse
  | some _, [] => .error ⟨start, none⟩
  | none, byte :: rest =>
      if byte < 0x80 then decodeFrom (start + 1) (Char.ofNat byte.toNat :: done) none rest
      else match Pending.ofLead? byte with
        | some pending => decodeFrom start done (some pending) rest
        | none => .error ⟨start, some 1⟩
  | some pending, byte :: rest =>
      if pending.low ≤ byte ∧ byte ≤ pending.high then
        match pending.owed with
        | 0 =>
            decodeFrom (start + pending.seen + 1)
              (Char.ofNat (pending.extended byte) :: done) none rest
        | owed + 1 =>
            decodeFrom start done
              (some ⟨pending.extended byte, 0x80, 0xBF, owed, pending.seen + 1⟩) rest
      else .error ⟨start, some pending.seen⟩

def decode (bytes : Bytes) : Except Fault Text := decodeFrom 0 [] none bytes

end Stencil.Utf8
