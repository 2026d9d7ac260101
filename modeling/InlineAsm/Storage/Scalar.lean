import InlineAsm.CType
import InlineAsm.Mismatch
import InlineAsm.Storage.Bytes

/-!
Scalars as bytes. An integer wraps around to the width of its type, as a conversion in C does.
-/

namespace InlineAsm.CType

/-- The bytes of a value of type `t`. -/
def encode (t : CType) (v : Value) : Except Mismatch (List UInt8) :=
  let refused := .error (.notStorable t v.kind)
  match t.storage with
  | .signed width | .unsigned width =>
    match v.int? with
    | some i => .ok (Bytes.ofNat width (i % twoPow (8 * width)).toNat)
    | none => refused
  | .floating width =>
    match v.float? with
    | some x =>
      .ok (if width = 4 then Bytes.ofNat 4 x.toSingle.bits.toNat else Bytes.ofNat width x.bits.toNat)
    | none => refused
  | .character =>
    match v with
    | .text s =>
      match s.toList with
      | c :: _ => .ok [UInt8.ofNat c.toNat]
      | [] => refused
    | _ => refused

/-- The bytes of the values up to the first that has none, and why it has none. -/
def encodeAll (t : CType) : List Value → List UInt8 × Option Mismatch
  | [] => ([], none)
  | v :: rest =>
    match t.encode v with
    | .error m => ([], some m)
    | .ok bytes =>
      let (later, refusal) := t.encodeAll rest
      (bytes ++ later, refusal)

/-- The integer of `width` bytes in two's complement that `n` stands for. -/
def signedValue (width n : Nat) : Int :=
  if n < twoPow (8 * width - 1) then n else (n : Int) - twoPow (8 * width)

def decode (t : CType) (bytes : List UInt8) : Value :=
  let n := Bytes.toNat bytes
  match t.storage with
  | .signed width => .int (signedValue width n)
  | .unsigned _ => .int n
  | .floating width =>
    .float (if width = 4 then (Single.mk (BitVec.ofNat 32 n)).toDouble else ⟨BitVec.ofNat 64 n⟩)
  | .character => .ofChar (Char.ofNat n)

end InlineAsm.CType
