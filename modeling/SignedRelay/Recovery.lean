import SignedRelay.Address
import SignedRelay.Curve.Secp256k1

/-!
# Recovering a signer

Everything that signs or verifies takes a hash primitive and a signature scheme as one value. A
signature on the wire is sixty-five bytes: two words and a recovery byte, which is the recovery
id itself or the id plus twenty-seven. Only the ids zero and one are supported. Main statement: the
signer of a signature in this form is the owner of the key that the signature recovers to.
-/
namespace SignedRelay

/-- The primitives in use. -/
structure Crypto where
  hasher : Hasher
  scheme : SignatureScheme

namespace Crypto

/-- Keccak-256 and secp256k1. -/
def ethereum : Crypto := ⟨.keccak256, .secp256k1⟩

/-- Keccak-256 behind a salt, and secp256k1. -/
def salted (salt : Bytes) : Crypto := ⟨Hasher.keccak256.salted salt, .secp256k1⟩

end Crypto

namespace Recovery

/-- The recovery id that a recovery byte stands for. -/
def normalize (v : Int) : Int := if v ≤ 26 then v else v - 27

/-- The address that signed a digest. -/
def signer (crypto : Crypto) (digest signature : Bytes) : Except SignatureError Bytes :=
  if digest.length ≠ 32 then .error (.digestLength digest.length)
  else if signature.length ≠ 65 then .error (.signatureLength signature.length)
  else
    let v := (signature.getD 64 0).toNat
    let id := normalize v
    if id ≠ 0 ∧ id ≠ 1 then .error (.recoveryId v)
    else
      let signature : Signature :=
        { r := Bytes.toNatBE (signature.take 32)
          s := Bytes.toNatBE ((signature.drop 32).take 32)
          odd := id == 1 }
      match crypto.scheme.recover digest signature with
      | none => .error .unrecoverable
      | some key => .ok (Address.ofPublicKey crypto.hasher key)

/-- A recovery byte that is the id plus twenty-seven stands for the id. -/
theorem normalize_recoveryBit (signature : Signature) :
    normalize ((signature.recoveryBit + 27 : Nat) : Int) = if signature.odd then 1 else 0 := by
  unfold normalize Signature.recoveryBit
  cases signature.odd <;> rfl

/-- Recovery from the wire form of a signature is recovery from the signature. -/
theorem signer_of_recover {crypto : Crypto} {digest key : Bytes} {signature : Signature}
    (hdigest : digest.length = 32) (hr : signature.r < Bytes.capacity 32)
    (hs : signature.s < Bytes.capacity 32)
    (hrecover : crypto.scheme.recover digest signature = some key) :
    signer crypto digest (signature.bytes ++ Bytes.ofNatLE 1 (signature.recoveryBit + 27)) =
      .ok (Address.ofPublicKey crypto.hasher key) := by
  have hbit : signature.recoveryBit ≤ 1 := by
    unfold Signature.recoveryBit
    split <;> decide
  have hbyte : Bytes.ofNatLE 1 (signature.recoveryBit + 27) =
      [UInt8.ofNat (signature.recoveryBit + 27)] := rfl
  have hv : ((signature.bytes ++ [UInt8.ofNat (signature.recoveryBit + 27)]).getD 64 0).toNat =
      signature.recoveryBit + 27 := by
    rw [List.getD_eq_getElem?_getD, List.getElem?_append_right (by simp)]
    simp
    omega
  have htakeR : (signature.bytes ++ [UInt8.ofNat (signature.recoveryBit + 27)]).take 32 =
      Bytes.ofNatBE 32 signature.r := by
    unfold Signature.bytes
    rw [List.append_assoc, List.take_left' (by simp)]
  have htakeS : ((signature.bytes ++ [UInt8.ofNat (signature.recoveryBit + 27)]).drop 32).take 32 =
      Bytes.ofNatBE 32 signature.s := by
    unfold Signature.bytes
    rw [List.append_assoc, List.drop_left' (by simp), List.take_left' (by simp)]
  unfold signer
  rw [if_neg (by simp [hdigest]), hbyte, if_neg (by simp)]
  dsimp only
  rw [hv, htakeR, htakeS, normalize_recoveryBit, Bytes.toNatBE_ofNatBE hr, Bytes.toNatBE_ofNatBE hs]
  have hodd : ((if signature.odd then (1 : Int) else 0) == 1) = signature.odd := by
    cases signature.odd <;> rfl
  rw [if_neg (by split <;> decide), hodd, hrecover]

end Recovery

end SignedRelay
