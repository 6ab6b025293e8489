import SignedRelay.Text.Quoted

/-!
# Refusals and faults

A message is refused for one of five kinds of reason, each with its own type. A fault is anything
else that stops a computation: a value that a caller should not have passed, a numeral too long to be
read or written, or a value that nests too deep for the interpreter's stack. Gateway operations fail
by a refusal, a wrong nonce, an amount that does not fit, or a fault. Each type has one function that
gives its text.
-/
namespace SignedRelay

open Text (quoted)

/-- Input bytes or type text that cannot be decoded. -/
inductive EncodingError
  | envelopeTruncated (needed available : Nat)
  | envelopeText
  | envelopeTrailing (count : Nat)
  | rlpMalformed
  | rlpNesting (bound : Int)
  | typeInvalid (text : List Char)
  | typeTrailing (rest text : List Char)
  | typeNesting (bound : Int) (text : List Char)
  | integerSize (word : List Char)
  | byteSize (word : List Char)
  | wordRange (value : Int)
  deriving DecidableEq, Repr

/-- A method definition that breaks the grammar. -/
inductive GrammarError
  | identifierExpected (text : List Char)
  | characterExpected (c : Char) (text : List Char)
  | argumentsUnterminated
  | nameMissing (text : List Char)
  | structRepeated (name : String)
  | argumentsMissing (text : List Char)
  deriving DecidableEq, Repr

/-- A value that does not fit its declared type. -/
inductive ArgumentError
  | structUnknown (name : String)
  | argumentsNotList
  | bytesExpected
  | listExpected
  | valueNesting (bound : Int)
  | fixedBytesLength (size length : Nat)
  | integerLength (length : Nat)
  | addressLength (length : Nat)
  | elementCount (declared given : Nat)
  deriving DecidableEq, Repr

/-- A number of values other than the declared one. -/
inductive CountError
  | arguments (declared given : Nat)
  | fields (name : String) (declared given : Nat)
  deriving DecidableEq, Repr

/-- A signature from which no signer can be recovered. -/
inductive SignatureError
  | digestLength (length : Nat)
  | signatureLength (length : Nat)
  | recoveryId (v : Nat)
  | unrecoverable
  deriving DecidableEq, Repr

/-- Why a message is refused. -/
inductive Refusal
  | encoding (error : EncodingError)
  | grammar (error : GrammarError)
  | argument (error : ArgumentError)
  | signature (error : SignatureError)
  | count (error : CountError)
  deriving DecidableEq, Repr

/-- The fields of an envelope whose length is fixed. -/
inductive FixedField
  | nonce
  | feeAmount
  | value
  | signature
  deriving DecidableEq, Repr

/-- Why a text is no private key. -/
inductive KeyError
  | notAscii
  | notHexadecimal
  | length (length : Nat)
  | range
  deriving DecidableEq, Repr

/-- How many numbers are written in at most so many digits. -/
def decimalCapacity : Nat → Nat
  | 0 => 1
  | digits + 1 => 10 * decimalCapacity digits

theorem decimalCapacity_succ (digits : Nat) :
    decimalCapacity (digits + 1) = 10 * decimalCapacity digits := rfl

-- Unfolding it at the limit below would take thousands of steps.
attribute [irreducible] decimalCapacity

/-- The number of digits that a numeral may have. -/
def numeralLimit : Nat := 4300

/-- The number has more digits than a numeral may have. -/
def Unwritable (value : Int) : Prop := decimalCapacity numeralLimit ≤ value.natAbs

instance (value : Int) : Decidable (Unwritable value) := Nat.decLe _ _

/-- Whatever stops a computation and is no refusal. -/
inductive Fault
  | numeralLength (length : Nat)
  | unwritable (value : Int)
  | wordRange (value : Int)
  | addressLength (length : Nat)
  | addressTextLength (length : Nat)
  | fieldLength (field : FixedField)
  | recoveryByte (v : Int)
  | vectorLength (length : Nat)
  | senderSet
  | publicKeyLength (length : Nat)
  | privateKey (error : KeyError)
  | unencodable (refusal : Refusal)
  | unsigned
  | stackExhausted
  deriving DecidableEq, Repr

/-- A failed step of decoding, hashing or verifying. -/
inductive Error
  | refused (refusal : Refusal)
  | fault (cause : Fault)
  deriving DecidableEq, Repr

/-- A verified call that cannot be forwarded, or proxy input that cannot be read. -/
inductive ProxyError
  | gasRange (gas : Int)
  | amountRange (amount : Int)
  | transferLength
  | receiverText
  | callTruncated
  | callTrailing
  | nameText
  deriving DecidableEq, Repr

/-- A nonce other than the sender's next one. -/
structure NonceMismatch where
  expected : Nat
  provided : Int
  deriving DecidableEq, Repr

/-- A failed operation of a gateway. -/
inductive GatewayError
  | rejected (refusal : Refusal)
  | notBase64
  | incorrectNonce (mismatch : NonceMismatch)
  | proxy (error : ProxyError)
  | fault (cause : Fault)
  deriving DecidableEq, Repr

namespace EncodingError

def message : EncodingError → String
  | envelopeTruncated needed available =>
    s!"Envelope truncated: need {needed} bytes, have {available}"
  | envelopeText => "Envelope string is not valid UTF-8"
  | envelopeTrailing count => s!"Envelope has {count} trailing bytes"
  | rlpMalformed => "Malformed RLP payload"
  | rlpNesting bound => s!"RLP lists nested deeper than {bound}"
  | typeInvalid text => s!"Invalid type: {quoted text}"
  | typeTrailing rest text => s!"Unexpected {quoted rest} in type {quoted text}"
  | typeNesting bound text => s!"Type nested deeper than {bound}: {quoted text}"
  | integerSize word => s!"Invalid integer size: {String.ofList word}"
  | byteSize word => s!"Invalid fixed bytes size: {String.ofList word}"
  | wordRange value => s!"Value out of uint256 range: {value}"

end EncodingError

namespace GrammarError

def message : GrammarError → String
  | identifierExpected text => s!"Expected identifier at {quoted text}"
  | characterExpected c text => s!"Expected {quoted [c]} at {quoted text}"
  | argumentsUnterminated => "Unterminated argument list"
  | nameMissing text => s!"Missing argument name in {quoted text}"
  | structRepeated name => s!"Struct {name} declared twice"
  | argumentsMissing text => s!"No argument list in {quoted text}"

end GrammarError

namespace ArgumentError

def message : ArgumentError → String
  | structUnknown name => s!"Unknown struct type: {name}"
  | argumentsNotList => "Arguments must be an RLP list"
  | bytesExpected => "Expected an RLP byte string, got a list"
  | listExpected => "Expected an RLP list, got a byte string"
  | valueNesting bound => s!"Struct values nested deeper than {bound}"
  | fixedBytesLength size length => s!"bytes{size} value is {length} bytes long"
  | integerLength length => s!"Integer value is {length} bytes long"
  | addressLength length => s!"Address value is {length} bytes long"
  | elementCount declared given => s!"Expected {declared} array elements, got {given}"

end ArgumentError

namespace CountError

def message : CountError → String
  | arguments declared given => s!"Expected {declared} arguments, got {given}"
  | fields name declared given => s!"{name} has {declared} fields, got {given}"

end CountError

namespace SignatureError

def message : SignatureError → String
  | digestLength length => s!"Digest must be 32 bytes, got {length}"
  | signatureLength length => s!"Signature must be 65 bytes, got {length}"
  | recoveryId v => s!"Unsupported recovery id: {v}"
  | unrecoverable => "Signature recovery failed"

end SignatureError

namespace Refusal

def message : Refusal → String
  | encoding error => error.message
  | grammar error => error.message
  | argument error => error.message
  | signature error => error.message
  | count error => error.message

end Refusal

namespace FixedField

def name : FixedField → String
  | nonce => "nonce"
  | feeAmount => "fee_amount"
  | value => "value"
  | signature => "signature"

def size : FixedField → Nat
  | signature => 64
  | _ => 32

end FixedField

namespace Fault

/-- The text of a fault, for those that state one. -/
def message? : Fault → Option String
  | wordRange value => some s!"Value out of uint256 range: {value}"
  | addressLength length => some s!"Address must be 20 bytes, got {length}"
  | fieldLength field => some s!"{field.name} must be {field.size} bytes"
  | senderSet => some "Meta call sender is already set"
  | publicKeyLength length => some s!"Invalid public key length: {length}"
  | unencodable refusal => some s!"Cannot encode meta call: {refusal.message}"
  | numeralLength _ | unwritable _ | addressTextLength _ | recoveryByte _ | vectorLength _
  | privateKey _ | unsigned | stackExhausted => none

end Fault

namespace Error

abbrev encoding (error : EncodingError) : Error := .refused (.encoding error)
abbrev grammar (error : GrammarError) : Error := .refused (.grammar error)
abbrev argument (error : ArgumentError) : Error := .refused (.argument error)
abbrev signature (error : SignatureError) : Error := .refused (.signature error)
abbrev count (error : CountError) : Error := .refused (.count error)

end Error

namespace ProxyError

def message : ProxyError → String
  | gasRange gas => s!"Gas does not fit in u64: {gas}"
  | amountRange amount => s!"Amount does not fit in u128: {amount}"
  | transferLength => "Transfer args shorter than 16 bytes"
  | receiverText => "Receiver id is not valid UTF-8"
  | callTruncated => "Proxy call input truncated"
  | callTrailing => "Proxy call input has trailing bytes"
  | nameText => "Proxy call names are not valid UTF-8"

end ProxyError

namespace NonceMismatch

def message (mismatch : NonceMismatch) : String :=
  s!"Incorrect nonce: expected {mismatch.expected}, got {mismatch.provided}"

end NonceMismatch

namespace GatewayError

def message? : GatewayError → Option String
  | rejected refusal => some refusal.message
  | notBase64 => some "Message is not valid base64"
  | incorrectNonce mismatch => some mismatch.message
  | proxy error => some error.message
  | fault cause => cause.message?

/-- A failed verification as the gateway reports it. -/
def ofError : Error → GatewayError
  | .refused refusal => .rejected refusal
  | .fault cause => .fault cause

end GatewayError

end SignedRelay
