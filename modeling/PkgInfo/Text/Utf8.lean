import PkgInfo.Outcome
import PkgInfo.Text.Basic

/-! UTF-8. Reading is one pass with one character pending, so a fault names the character it is in:
the index of its first byte, and how many of its bytes were in order before the one that is not. -/
namespace PkgInfo

abbrev Bytes := List UInt8

namespace Utf8

inductive Fault where
  | invalid (length index : Nat)
  | incomplete (index : Nat)
  deriving DecidableEq, Repr

structure Pending where
  owed : Nat
  low : Nat
  high : Nat
  bits : Nat
  deriving DecidableEq, Repr

-- The narrower ranges keep out overlong forms, surrogates and numbers past the last code point.
def Pending.ofFirst? (b : Nat) : Option Pending :=
  if b < 0x80 then some ⟨0, 0x80, 0xBF, b⟩
  else if b < 0xC2 then none
  else if b < 0xE0 then some ⟨1, 0x80, 0xBF, b - 0xC0⟩
  else if b < 0xF0 then
    some ⟨2, if b = 0xE0 then 0xA0 else 0x80, if b = 0xED then 0x9F else 0xBF, b - 0xE0⟩
  else if b < 0xF5 then
    some ⟨3, if b = 0xF0 then 0x90 else 0x80, if b = 0xF4 then 0x8F else 0xBF, b - 0xF0⟩
  else none

def Pending.take (p : Pending) (b : Nat) : Pending :=
  ⟨p.owed - 1, 0x80, 0xBF, p.bits * 64 + (b - 0x80)⟩

def decodeFrom (index taken : Nat) : Option Pending → Bytes → Except Fault Text
  | none, [] => .ok []
  | some _, [] => .error (.incomplete index)
  | none, b :: rest =>
    match Pending.ofFirst? b.toNat with
    | none => .error (.invalid 1 index)
    | some p =>
      if p.owed = 0 then (decodeFrom (index + 1) 0 none rest).map (Char.ofNat p.bits :: ·)
      else decodeFrom index 1 (some p) rest
  | some p, b :: rest =>
    if p.low ≤ b.toNat ∧ b.toNat ≤ p.high then
      let q := p.take b.toNat
      if q.owed = 0 then
        (decodeFrom (index + taken + 1) 0 none rest).map (Char.ofNat q.bits :: ·)
      else decodeFrom index (taken + 1) (some q) rest
    else .error (.invalid taken index)

def decode (bytes : Bytes) : Except Fault Text := decodeFrom 0 0 none bytes

def encode (text : Text) : Bytes := text.flatMap String.utf8EncodeChar

theorem encodeAppend (left right : Text) : encode (left ++ right) = encode left ++ encode right := by
  simp [encode]

end Utf8
end PkgInfo
