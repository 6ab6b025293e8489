import SignedRelay.MetaCall.Verify

/-!
# Signing a meta call

The counterpart of verification: a private key and a call give a message. Main statement: the text of
a private key gives a valid one.
-/
namespace SignedRelay

/-- What is to be signed, beside the gateway and the domain. -/
structure SigningRequest where
  nonce : Int
  feeAmount : Int
  feeAddress : String
  contractAddress : String
  value : Int
  /-- The text of a method definition, empty for a plain call. -/
  methodText : String := ""
  /-- Encoded arguments. Without them, a call with a method has the empty list. -/
  args : Option Bytes := none
  deriving DecidableEq, Repr

namespace PrivateKey

/-- The hexadecimal digits of a key: without a `0x` in front, and with a zero in front of an odd
number of digits. -/
def digits (text : List Char) : List Char :=
  let digits :=
    match text with
    | '0' :: 'x' :: rest => rest
    | '0' :: 'X' :: rest => rest
    | text => text
  if digits.length % 2 = 0 then digits else '0' :: digits

/-- The private key that a text writes. -/
def parse (scheme : SignatureScheme) (text : String) : Except KeyError Nat :=
  let digits := digits text.toList
  if digits.any fun c => 128 ≤ c.toNat then .error .notAscii
  else
    match Bytes.ofHex? digits with
    | none => .error .notHexadecimal
    | some data =>
      if data.length ≠ 32 then .error (.length data.length)
      else
        let key := Bytes.toNatBE data
        if key = 0 ∨ scheme.order ≤ key then .error .range else .ok key

theorem validKey_of_parse {scheme : SignatureScheme} {text : String} {key : Nat}
    (h : parse scheme text = .ok key) : scheme.ValidKey key := by
  unfold parse at h
  dsimp only at h
  split at h
  · cases h
  · split at h
    · cases h
    · split at h
      · cases h
      · split at h
        · cases h
        · next hrange =>
          cases h
          unfold SignatureScheme.ValidKey
          omega

end PrivateKey

namespace SigningRequest

/-- The arguments in effect. -/
def arguments (request : SigningRequest) : Bytes :=
  match request.args with
  | some args => args
  | none => if request.methodText.isEmpty then [] else Rlp.emptyList

/-- The call that is signed. -/
def call (request : SigningRequest) : MetaCall where
  nonce := request.nonce
  feeAmount := request.feeAmount
  feeAddress := request.feeAddress
  contractAddress := request.contractAddress
  methodName := request.methodText
  value := request.value
  args := request.arguments

/-- The envelope of a request and a signature. The recovery byte is the id plus twenty-seven. -/
def envelope (request : SigningRequest) (signature : Signature) : Except Fault Envelope := do
  let nonce ← Word.ofInt request.nonce
  let feeAmount ← Word.ofInt request.feeAmount
  let value ← Word.ofInt request.value
  return {
    signature := signature.bytes
    v := signature.recoveryBit + 27
    nonce
    feeAmount
    feeAddress := request.feeAddress
    contractAddress := request.contractAddress
    value
    method := request.methodText
    args := request.arguments }

/-- A refusal to prepare a call is a fault of the party that signs it. -/
def preparation : Error → Fault
  | .refused refusal => .unencodable refusal
  | .fault fault => fault

/-- The message that carries a request, signed with a private key. -/
def sign [Stack] (request : SigningRequest) (context : SigningContext) (privateKey : String) :
    Except Fault Bytes := do
  let prepared ← (context.prepare request.call).mapError preparation
  let key ← (PrivateKey.parse context.crypto.scheme privateKey).mapError .privateKey
  match context.crypto.scheme.sign key prepared.digest with
  | none => throw .unsigned
  | some signature => (← request.envelope signature).encode

end SigningRequest

end SignedRelay
