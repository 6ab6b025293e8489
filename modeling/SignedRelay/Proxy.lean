import SignedRelay.Wire

/-!
# Input of the proxy account

The account that acts for a sender understands two layouts: an amount with a receiver, for a
transfer, and a gas allowance and an amount with a receiver, a method and its arguments, for a call.
-/
namespace SignedRelay.Proxy

/-- How a number out of its range is reported. The text of the error holds the number, which stops
the report of one that is too long to be written. -/
def outOfRange (value : Int) (error : ProxyError) : GatewayError :=
  if Unwritable value then .fault (.unwritable value) else .proxy error

/-- A number in a fixed count of bytes, with the error for one that does not fit. -/
def ofNumber (size : Nat) (error : Int → ProxyError) (value : Int) : Except GatewayError Bytes :=
  if value < 0 ∨ Bytes.capacity size ≤ value then .error (outOfRange value (error value))
  else .ok (Bytes.ofNatLE size value.toNat)

/-- An amount of money in sixteen bytes. -/
def ofAmount : Int → Except GatewayError Bytes := ofNumber 16 .amountRange

/-- An amount of gas in eight bytes. -/
def ofGas : Int → Except GatewayError Bytes := ofNumber 8 .gasRange

/-- A transfer of an amount to an account. -/
structure Transfer where
  amount : Int
  receiverId : String
  deriving DecidableEq, Repr

namespace Transfer

def encode (transfer : Transfer) : Except GatewayError Bytes := do
  let amount ← ofAmount transfer.amount
  return amount ++ Bytes.utf8 transfer.receiverId

def decode (data : Bytes) : Except ProxyError Transfer :=
  if data.length < 16 then .error .transferLength
  else
    match Bytes.ofUtf8? (data.drop 16) with
    | none => .error .receiverText
    | some receiverId => .ok { amount := Bytes.toNatLE (data.take 16), receiverId }

end Transfer

/-- A call of a method with an amount attached. -/
structure Call where
  gas : Int
  amount : Int
  receiverId : String
  methodName : String
  args : Bytes := []
  deriving DecidableEq, Repr

namespace Call

/-- The byte string of a call. The gas is checked before the amount. -/
def encode (call : Call) : Except GatewayError Bytes := do
  let gas ← ofGas call.gas
  let amount ← ofAmount call.amount
  let receiverId ← (Wire.ofText call.receiverId).mapError .fault
  let methodName ← (Wire.ofText call.methodName).mapError .fault
  let args ← (Wire.ofVector call.args).mapError .fault
  return gas ++ amount ++ receiverId ++ methodName ++ args

/-- The fields of a call, with its texts as bytes. -/
structure Fields where
  gas : Nat
  amount : Nat
  receiverId : Bytes
  methodName : Bytes
  args : Bytes

def reader : Wire.Reader Fields := do
  let gas ← Wire.number 8
  let amount ← Wire.number 16
  let receiverId ← Wire.vector
  let methodName ← Wire.vector
  let args ← Wire.vector
  return { gas, amount, receiverId, methodName, args }

/-- A damaged layout as an error of the proxy. -/
def damage : Wire.Error → ProxyError
  | .short .. => .callTruncated
  | .notText => .nameText
  | .trailing _ => .callTrailing

/-- The texts are checked after the layout as a whole. -/
def decode (data : Bytes) : Except ProxyError Call := do
  let fields ← (Wire.read reader data).mapError damage
  match Bytes.ofUtf8? fields.receiverId, Bytes.ofUtf8? fields.methodName with
  | some receiverId, some methodName =>
    return {
      gas := fields.gas
      amount := fields.amount
      receiverId
      methodName
      args := fields.args }
  | _, _ => throw .nameText

end Call

end SignedRelay.Proxy
