import SignedRelay.Proofs.RlpNesting
import SignedRelay.Rlp.Encode

/-!
# Only the canonical encoding is read

Every header that is read is the one that is written for its payload. Main statements: what is read
as a list of values is their encoding, and so no two payloads are read as the same arguments.
-/
namespace SignedRelay.Rlp

theorem split?_sound {length : Nat} {data first rest : Bytes}
    (h : split? length data = some (first, rest)) : first.length = length ∧ data = first ++ rest := by
  unfold split? at h
  split at h
  · next hle =>
    cases h
    exact ⟨List.length_take_of_le hle, (List.take_append_drop length data).symm⟩
  · cases h

/-- A long payload stands behind the digits of its length. -/
theorem longPayload?_sound {size : Nat} {data payload rest : Bytes}
    (h : longPayload? size data = some (payload, rest)) :
    55 < payload.length ∧ (Bytes.digitsBE payload.length).length = size ∧
      data = Bytes.digitsBE payload.length ++ payload ++ rest := by
  unfold longPayload? at h
  split at h
  · cases h
  · next digits tail hsplit =>
    split at h
    · cases h
    · next hcanonical =>
      obtain ⟨hsize, hdata⟩ := split?_sound hsplit
      obtain ⟨hlength, htail⟩ := split?_sound h
      have hdigits : Bytes.digitsBE (Bytes.toNatBE digits) = digits :=
        Bytes.digitsBE_toNatBE fun hzero => hcanonical (Or.inl hzero)
      rw [hlength, hdigits, hdata, htail, List.append_assoc]
      exact ⟨by omega, hsize, rfl⟩

theorem header_of_short {b : UInt8} {start : Nat} {payload : Bytes} (hle : start ≤ b.toNat)
    (hlength : payload.length = b.toNat - start) (hshort : payload.length ≤ 55) :
    header start payload.length = [b] := by
  unfold header
  rw [if_pos hshort]
  have hb : start + payload.length = b.toNat := by omega
  rw [hb, UInt8.ofNat_toNat]

theorem header_of_long {b : UInt8} {start : Nat} {payload : Bytes} (hle : start + 55 ≤ b.toNat)
    (hlong : 55 < payload.length)
    (hsize : (Bytes.digitsBE payload.length).length = b.toNat - (start + 55)) :
    header start payload.length = b :: Bytes.digitsBE payload.length := by
  unfold header
  rw [if_neg (by omega)]
  dsimp only
  have hb : start + 55 + (Bytes.digitsBE payload.length).length = b.toNat := by omega
  rw [hb, UInt8.ofNat_toNat]

/-- The encoding of an item, given that of the items inside. -/
def Item.encode : Item → Bytes
  | bytes data => (Rlp.bytes data).encode
  | list payload => header 0xc0 payload.length ++ payload

theorem encode_bytes_of_not_own {data : Bytes} (h : isOwnEncoding data = false) :
    (bytes data).encode = header 0x80 data.length ++ data := by
  rw [Rlp.encode, h]
  exact if_neg Bool.false_ne_true

theorem not_own_of_long {data : Bytes} (h : 55 < data.length) : isOwnEncoding data = false := by
  cases data with
  | nil => rfl
  | cons first rest =>
    cases rest with
    | nil => simp at h
    | cons => rfl

theorem item?_sound {data rest : Bytes} {item : Item} (h : item? data = some (item, rest)) :
    data = item.encode ++ rest := by
  unfold item? at h
  split at h
  · cases h
  · next b tail =>
    have hbyte : b.toNat < 256 := b.toNat_lt
    -- The five ranges of the first byte, in their order.
    split at h
    · next hown =>
      cases h
      have hself : (bytes [b]).encode = [b] := by
        rw [Rlp.encode]
        exact if_pos (decide_eq_true hown)
      show b :: rest = (bytes [b]).encode ++ rest
      rw [hself]
      rfl
    next hb80 =>
    have hle80 : 0x80 ≤ b.toNat := Nat.not_lt.1 fun hlt => hb80 (UInt8.lt_iff_toNat_lt.2 hlt)
    split at h
    · next hbb8 =>
      have hltb8 : b.toNat < 0xb8 := UInt8.lt_iff_toNat_lt.1 hbb8
      split at h
      · next found after hsplit =>
        split at h
        · cases h
        · next hown =>
          cases h
          obtain ⟨hlength, rfl⟩ := split?_sound hsplit
          have hheader := header_of_short hle80 hlength (by omega)
          show _ = (bytes found).encode ++ rest
          rw [encode_bytes_of_not_own (by simpa using hown), hheader]
          simp
      · cases h
    next hbb8 =>
    have hleb8 : 0xb8 ≤ b.toNat := Nat.not_lt.1 fun hlt => hbb8 (UInt8.lt_iff_toNat_lt.2 hlt)
    split at h
    · obtain ⟨⟨found, after⟩, hlong, heq⟩ := Option.map_eq_some_iff.1 h
      cases heq
      obtain ⟨h55, hsize, rfl⟩ := longPayload?_sound hlong
      have hheader : header 0x80 found.length = b :: Bytes.digitsBE found.length :=
        header_of_long (by omega) h55 hsize
      show _ = (bytes found).encode ++ rest
      rw [encode_bytes_of_not_own (not_own_of_long h55), hheader]
      simp
    next hbc0 =>
    have hlec0 : 0xc0 ≤ b.toNat := Nat.not_lt.1 fun hlt => hbc0 (UInt8.lt_iff_toNat_lt.2 hlt)
    split at h
    · next hbf8 =>
      have hltf8 : b.toNat < 0xf8 := UInt8.lt_iff_toNat_lt.1 hbf8
      obtain ⟨⟨payload, after⟩, hsplit, heq⟩ := Option.map_eq_some_iff.1 h
      cases heq
      obtain ⟨hlength, rfl⟩ := split?_sound hsplit
      have hheader := header_of_short hlec0 hlength (by omega)
      show _ = header 0xc0 payload.length ++ payload ++ rest
      rw [hheader]
      simp
    next hbf8 =>
    have hlef8 : 0xf8 ≤ b.toNat := Nat.not_lt.1 fun hlt => hbf8 (UInt8.lt_iff_toNat_lt.2 hlt)
    obtain ⟨⟨payload, after⟩, hlong, heq⟩ := Option.map_eq_some_iff.1 h
    cases heq
    obtain ⟨h55, hsize, rfl⟩ := longPayload?_sound hlong
    have hheader : header 0xc0 payload.length = b :: Bytes.digitsBE payload.length :=
      header_of_long (by omega) h55 hsize
    show _ = header 0xc0 payload.length ++ payload ++ rest
    rw [hheader]
    simp

/-- What is read as values one behind the other is their encoding. -/
theorem encodeAll_of_values? {data : Bytes} {values : List Rlp} (h : values? data = some values) :
    encodeAll values = data := by
  fun_induction values? data generalizing values with
  | case1 data hempty =>
    cases h
    rw [List.isEmpty_iff.1 hempty, encodeAll]
  | case2 data hempty hitem => cases h
  | case3 data hempty content rest hitem hrest ih => cases h
  | case4 data hempty content rest hitem others hothers ih =>
    cases h
    rw [encodeAll, ih hothers, item?_sound hitem]
    rfl
  | case5 data hempty payload rest hitem hpayload ih => cases h
  | case6 data hempty payload rest hitem items hitems hrest ih1 ih2 => cases h
  | case7 data hempty payload rest hitem items hitems others hothers ih1 ih2 =>
    cases h
    rw [encodeAll, encode, ih1 hitems, ih2 hothers, item?_sound hitem]
    rfl

section Reading

variable [Stack]

theorem encode_of_value? {data : Bytes} {value : Rlp} (h : value? data = some value) :
    encode value = data := by
  unfold value? at h
  split at h
  · next found hvalues =>
    split at h
    · cases h
      have hall := encodeAll_of_values? hvalues
      rwa [encodeAll, encodeAll, List.append_nil] at hall
    · cases h
  · cases h

theorem encode_of_decode {bound : Int} {data : Bytes} {value : Rlp}
    (h : decode bound data = .ok value) : encode value = data :=
  encode_of_value? (decode_eq_ok_iff.1 h).1

/-- Arguments are read from their canonical encoding only. -/
theorem encode_of_decodeList {bound : Int} {data : Bytes} {items : List Rlp}
    (h : decodeList bound data = .ok items) : encode (list items) = data :=
  encode_of_decode (decodeList_eq_ok_iff.1 h)

end Reading

end SignedRelay.Rlp
