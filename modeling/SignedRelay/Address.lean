import SignedRelay.Error
import SignedRelay.Hash.Keccak

/-!
# Addresses

An address is the last twenty bytes of the digest of a public key. Its text is hexadecimal, and the
case of each letter is a bit of a checksum: upper case where the same digit of the Keccak-256 digest
of the lower-case text is eight or more. Main statement: the text in lower case is the plain
hexadecimal text.
-/
namespace SignedRelay.Address

/-- The address of a public key of sixty-four bytes. -/
def ofPublicKey (hasher : Hasher) (key : Bytes) : Bytes := (hasher.hash key).drop 12

/-- The case of one hexadecimal digit under a checksum digit. -/
def checksumCase (c mask : Char) : Char := if '8' ≤ mask then c.toUpper else c

/-- The digits of an address in checksum case. -/
def checksumChars (address : Bytes) : List Char :=
  let mask := (Keccak.digest (Bytes.utf8 address.hex)).hexChars
  address.hexChars.zipWith checksumCase mask

/-- The text of an address. -/
def text (address : Bytes) : Except Fault String :=
  if address.length = 20 then .ok (String.ofList ('0' :: 'x' :: checksumChars address))
  else .error (.addressTextLength address.length)

/-- The text of the address of a public key: sixty-four bytes, or sixty-five with a leading mark.
Neither the mark nor the curve equation is checked. -/
def textOfPublicKey (key : Bytes) : Except Fault String :=
  let point := if key.length = 65 then key.drop 1 else key
  if point.length = 64 then text (ofPublicKey .keccak256 point)
  else .error (.publicKeyLength point.length)

/-- The text with every letter in lower case. -/
def lower (text : String) : List Char := text.toList.map Char.toLower

theorem toLower_checksumCase {n : Nat} (h : n < 16) (mask : Char) :
    (checksumCase (Bytes.hexDigit n) mask).toLower = Bytes.hexDigit n := by
  unfold checksumCase
  split
  · revert n; decide
  · revert n; decide

theorem map_toLower_zipWith_checksumCase (data : Bytes) (mask : List Char)
    (h : 2 * data.length ≤ mask.length) :
    (data.hexChars.zipWith checksumCase mask).map Char.toLower = data.hexChars := by
  induction data generalizing mask with
  | nil => simp [Bytes.hexChars]
  | cons b rest ih =>
    have hb : b.toNat < 256 := b.toNat_lt
    obtain ⟨high, mask, rfl⟩ := List.exists_cons_of_length_pos (l := mask) (by simp at h; omega)
    obtain ⟨low, mask, rfl⟩ := List.exists_cons_of_length_pos (l := mask) (by simp at h; omega)
    have ih := ih mask (by simp at h; omega)
    simp only [Bytes.hexChars, List.flatMap_cons, List.cons_append, List.nil_append,
      List.zipWith_cons_cons, List.map_cons] at ih ⊢
    rw [toLower_checksumCase (by omega), toLower_checksumCase (by omega), ih]

theorem lower_text {address : Bytes} {shown : String} (h : text address = .ok shown) :
    lower shown = '0' :: 'x' :: address.hexChars := by
  unfold text at h
  split at h
  · next hlen =>
    cases h
    simp only [lower, String.toList_ofList, List.map_cons, checksumChars]
    rw [map_toLower_zipWith_checksumCase _ _ (by simp [hlen])]
    rfl
  · simp at h

theorem length_ofPublicKey {hasher : Hasher} (h : hasher.WordSized) (key : Bytes) :
    (ofPublicKey hasher key).length = 20 := by
  simp [ofPublicKey, h key]

end SignedRelay.Address
