import SignedRelay.Wire

/-!
# Envelopes

A signed meta call travels as one byte string: a signature with its recovery byte, three numbers as
words, and texts and arguments behind their lengths.
-/
namespace SignedRelay

structure Envelope where
  /-- Two words, without the recovery byte. -/
  signature : Bytes
  /-- The recovery byte. -/
  v : Int
  nonce : Bytes
  feeAmount : Bytes
  feeAddress : String
  contractAddress : String
  value : Bytes
  /-- The text of a method definition, empty for a plain call. -/
  method : String
  args : Bytes
  deriving DecidableEq, Repr

namespace Envelope

def reader : Wire.Reader Envelope := do
  let signature ← Wire.take 64
  let v ← Wire.number 1
  let nonce ← Wire.take 32
  let feeAmount ← Wire.take 32
  let feeAddress ← Wire.text
  let contractAddress ← Wire.text
  let value ← Wire.take 32
  let method ← Wire.text
  let args ← Wire.vector
  return { signature, v, nonce, feeAmount, feeAddress, contractAddress, value, method, args }

/-- A damaged layout as an error of decoding. -/
def damage : Wire.Error → EncodingError
  | .short needed available => .envelopeTruncated needed available
  | .notText => .envelopeText
  | .trailing count => .envelopeTrailing count

def decode (data : Bytes) : Except EncodingError Envelope :=
  (Wire.read reader data).mapError damage

/-- A field of fixed length, as it is. -/
def fixed (field : FixedField) (data : Bytes) : Except Fault Bytes :=
  if data.length = field.size then .ok data else .error (.fieldLength field)

/-- The recovery byte as a byte. -/
def recoveryByte (v : Int) : Except Fault Bytes :=
  if v < 0 ∨ 255 < v then .error (.recoveryByte v) else .ok (Bytes.ofNatLE 1 v.toNat)

/-- The byte string of an envelope. All lengths are checked before the recovery byte. -/
def encode (envelope : Envelope) : Except Fault Bytes := do
  let nonce ← fixed .nonce envelope.nonce
  let feeAmount ← fixed .feeAmount envelope.feeAmount
  let value ← fixed .value envelope.value
  let signature ← fixed .signature envelope.signature
  let v ← recoveryByte envelope.v
  let feeAddress ← Wire.ofText envelope.feeAddress
  let contractAddress ← Wire.ofText envelope.contractAddress
  let method ← Wire.ofText envelope.method
  let args ← Wire.ofVector envelope.args
  return signature ++ v ++ nonce ++ feeAmount ++ feeAddress ++ contractAddress ++ value
    ++ method ++ args

end Envelope

end SignedRelay
