import SignedRelay.Address
import SignedRelay.Envelope

/-!
# Meta calls

A meta call as its signer means it, with numbers in place of words. Its sender is not known until
the signature has been checked, and is then set once.
-/
namespace SignedRelay

structure MetaCall where
  nonce : Int
  feeAmount : Int
  feeAddress : String
  contractAddress : String
  /-- The text of a method definition, and once verified the bare name. -/
  methodName : String
  value : Int
  /-- Encoded arguments, and once verified the bytes that were signed for them. -/
  args : Bytes
  /-- The encoded arguments as they arrived. -/
  rawArgs : Bytes := []
  deriving DecidableEq, Repr

/-- A meta call whose sender may be unknown. -/
structure PendingCall extends MetaCall where
  sender : Option Bytes := none
  deriving DecidableEq, Repr

/-- A meta call whose signature has been checked. -/
structure VerifiedCall extends MetaCall where
  sender : Bytes
  /-- The text of the sender's address. -/
  senderAddress : String
  deriving DecidableEq, Repr

namespace PendingCall

/-- The call that an envelope carries. -/
def ofEnvelope (envelope : Envelope) : PendingCall where
  nonce := Bytes.toNatBE envelope.nonce
  feeAmount := Bytes.toNatBE envelope.feeAmount
  feeAddress := envelope.feeAddress
  contractAddress := envelope.contractAddress
  methodName := envelope.method
  value := Bytes.toNatBE envelope.value
  args := envelope.args
  rawArgs := envelope.args

/-- The text of the sender's address, if the sender is known. -/
def senderAddress (call : PendingCall) : Except Fault (Option String) :=
  match call.sender with
  | none => .ok none
  | some sender => (Address.text sender).map some

/-- The call with its sender, its bare method name and the signed argument bytes. The sender of a
call is set only once. -/
def populate (call : PendingCall) (sender : Bytes) (methodName : String) (args : Bytes) :
    Except Fault PendingCall :=
  match call.sender with
  | some _ => .error .senderSet
  | none => .ok { call with sender := some sender, methodName, args }

end PendingCall

end SignedRelay
